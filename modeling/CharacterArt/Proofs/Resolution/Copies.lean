import CharacterArt.Proofs.Precedence
import CharacterArt.Resolution
import Mathlib.Data.List.Induction

/-!
# Choosing among copies

Of every object the best copy so far is kept.  The invariant is `Copies.AreBest`: what is kept of an
object is one of the copies that were met, and none of those outranks it.  The next copy is refused
exactly if it ties with the copies before it.

## Main Definitions

* `Asset.isCopyOf`, `holders` — the copies of an object among assets, and their bundles in order
* `Copies.best?` — the copy that is kept of an object
* `Copies.AreBest` — the invariant

## Main Results

* `Copies.choose_cases` — one more copy
* `Copies.ofList_cases` — all copies: the best ones, or a contested object
-/

namespace CharacterArt

/-- Whether an asset is a copy of an object of a kind. -/
def Asset.isCopyOf (id : PathId) (kind : AssetKind) (a : Asset) : Bool :=
  a.pathId == id && a.kind == kind

/-- The bundles that the copies of an object are from, in the order in which the copies are met. -/
def holders (assets : List Asset) (id : PathId) (kind : AssetKind) : List String :=
  (assets.filter (Asset.isCopyOf id kind)).map Asset.bundle

theorem Asset.isCopyOf_iff {id : PathId} {kind : AssetKind} {a : Asset} :
    a.isCopyOf id kind = true ↔ a.pathId = id ∧ a.kind = kind := by
  simp [isCopyOf]

theorem mem_holders {assets : List Asset} {id : PathId} {kind : AssetKind} {bundle : String} :
    bundle ∈ holders assets id kind ↔
      ∃ a ∈ assets, (a.pathId = id ∧ a.kind = kind) ∧ a.bundle = bundle := by
  simp only [holders, List.mem_map, List.mem_filter, Asset.isCopyOf_iff, and_assoc]

theorem holders_append (front back : List Asset) (id : PathId) (kind : AssetKind) :
    holders (front ++ back) id kind = holders front id kind ++ holders back id kind := by
  simp [holders]

theorem holders_singleton (a : Asset) (id : PathId) (kind : AssetKind) :
    holders [a] id kind = if a.isCopyOf id kind then [a.bundle] else [] := by
  unfold holders
  cases h : a.isCopyOf id kind <;> simp [h]

namespace Copies

variable {p : Precedence} {assets : List Asset} {c : Copies} {a : Asset}

/-- The copy that is kept of an object of a kind. -/
def best? (c : Copies) (id : PathId) (kind : AssetKind) : Option Asset :=
  (c.ofKind kind)[id]?

theorem best?_put (c : Copies) (a : Asset) (id : PathId) (kind : AssetKind) :
    (c.put a).best? id kind = if a.isCopyOf id kind then some a else c.best? id kind := by
  have hid : (compare a.pathId id = .eq) = (a.pathId = id) := propext Std.compare_eq_iff_eq
  unfold best? put Asset.isCopyOf
  cases a.kind <;> cases kind <;> simp [ofKind, Std.TreeMap.getElem?_insert, hid]

/-- What is kept of an object is one of its copies, and no copy outranks it. -/
structure AreBest (p : Precedence) (assets : List Asset) (c : Copies) : Prop where
  mem_of_best? : ∀ {id kind best}, c.best? id kind = some best →
    best ∈ assets ∧ best.pathId = id ∧ best.kind = kind
  exists_best : ∀ a ∈ assets, ∃ best, c.best? a.pathId a.kind = some best ∧
    (p.rank a.bundle).level ≤ (p.rank best.bundle).level

theorem areBest_nil (p : Precedence) : AreBest p [] {} where
  mem_of_best? {id kind best} h := by cases kind <;> simp [best?, ofKind] at h
  exists_best a ha := by simp at ha

namespace AreBest

/-- A copy that the one so far does not outrank takes its place. -/
theorem put (h : AreBest p assets c)
    (ha : ∀ best, c.best? a.pathId a.kind = some best →
      (p.rank best.bundle).level ≤ (p.rank a.bundle).level) :
    AreBest p (assets ++ [a]) (c.put a) where
  mem_of_best? {id kind best} hbest := by
    rw [best?_put] at hbest
    split at hbest
    · next hcopy =>
        cases hbest
        exact ⟨by simp, Asset.isCopyOf_iff.mp hcopy⟩
    · obtain ⟨hmem, hkey⟩ := h.mem_of_best? hbest
      exact ⟨List.mem_append_left _ hmem, hkey⟩
  exists_best x hx := by
    rw [best?_put]
    cases hcopy : a.isCopyOf x.pathId x.kind with
    | true =>
        refine ⟨a, by simp, ?_⟩
        rcases List.mem_append.mp hx with hx | hx
        · obtain ⟨hid, hkind⟩ := Asset.isCopyOf_iff.mp hcopy
          obtain ⟨best, hbest, hle⟩ := h.exists_best x hx
          rw [← hid, ← hkind] at hbest
          exact Nat.le_trans hle (ha best hbest)
        · obtain rfl := List.mem_singleton.mp hx
          exact Nat.le_refl _
    | false =>
        rcases List.mem_append.mp hx with hx | hx
        · simpa using h.exists_best x hx
        · rw [List.mem_singleton.mp hx] at hcopy
          simp [Asset.isCopyOf] at hcopy

/-- A copy that is outranked is left out. -/
theorem keep {best : Asset} (h : AreBest p assets c) (hbest : c.best? a.pathId a.kind = some best)
    (ha : (p.rank a.bundle).level ≤ (p.rank best.bundle).level) :
    AreBest p (assets ++ [a]) c where
  mem_of_best? {id kind found} hfound := by
    obtain ⟨hmem, hkey⟩ := h.mem_of_best? hfound
    exact ⟨List.mem_append_left _ hmem, hkey⟩
  exists_best x hx := by
    rcases List.mem_append.mp hx with hx | hx
    · exact h.exists_best x hx
    · rw [List.mem_singleton.mp hx]
      exact ⟨best, hbest, ha⟩

/-- **A bundle ties with those of the copies so far exactly if it has the rank of the one that is
kept.** -/
theorem ties_iff (h : AreBest p assets c) (id : PathId) (kind : AssetKind) (b : String) :
    p.Ties (holders assets id kind) b ↔
      ∃ best, c.best? id kind = some best ∧ p.rank best.bundle = p.rank b := by
  have hle : ∀ x ∈ holders assets id kind, ∃ best, c.best? id kind = some best ∧
      (p.rank x).level ≤ (p.rank best.bundle).level := by
    intro x hx
    obtain ⟨a, ha, ⟨rfl, rfl⟩, rfl⟩ := mem_holders.mp hx
    exact h.exists_best a ha
  have hheld : ∀ best, c.best? id kind = some best → best.bundle ∈ holders assets id kind := by
    intro best hbest
    obtain ⟨hmem, hkey⟩ := h.mem_of_best? hbest
    exact mem_holders.mpr ⟨best, hmem, hkey, rfl⟩
  constructor
  · rintro ⟨⟨x, hx, hrank⟩, hall⟩
    obtain ⟨best, hbest, hxle⟩ := hle x hx
    rw [hrank] at hxle
    exact ⟨best, hbest,
      Rank.level_inj.mp (Nat.le_antisymm (hall best.bundle (hheld best hbest)) hxle)⟩
  · rintro ⟨best, hbest, hrank⟩
    refine ⟨⟨best.bundle, hheld best hbest, hrank⟩, ?_⟩
    intro x hx
    obtain ⟨found, hfound, hxle⟩ := hle x hx
    obtain rfl : found = best := Option.some.inj (hfound.symm.trans hbest)
    rwa [← hrank]

end AreBest

theorem choose_of_none (p : Precedence) (hbest : c.best? a.pathId a.kind = none) :
    choose p c a = .ok (c.put a) := by
  unfold best? at hbest
  rw [choose, hbest]

theorem choose_of_some {best : Asset} (p : Precedence)
    (hbest : c.best? a.pathId a.kind = some best) :
    choose p c a =
      match compare (p.rank a.bundle).level (p.rank best.bundle).level with
      | .gt => .ok (c.put a)
      | .lt => .ok c
      | .eq => .error (.ambiguous a.pathId best.bundle a.bundle) := by
  unfold best? at hbest
  rewrite [choose, hbest]
  rfl

/-- **One more copy is refused if its bundle ties with those of the copies before it.  Otherwise the
best copies are known again.** -/
theorem choose_cases (h : AreBest p assets c) (a : Asset) :
    (∃ c', choose p c a = .ok c' ∧ AreBest p (assets ++ [a]) c' ∧
        ¬ p.Ties (holders assets a.pathId a.kind) a.bundle) ∨
      ∃ first second, choose p c a = .error (.ambiguous a.pathId first second) ∧
        p.Ties (holders assets a.pathId a.kind) a.bundle := by
  simp only [h.ties_iff]
  cases hbest : c.best? a.pathId a.kind with
  | none =>
      refine .inl ⟨c.put a, choose_of_none p hbest, h.put ?_, ?_⟩
      · intro best hsome
        rw [hbest] at hsome
        cases hsome
      · rintro ⟨best, hsome, -⟩
        cases hsome
  | some best =>
      -- copies of different ranks do not tie
      have hother : (p.rank a.bundle).level ≠ (p.rank best.bundle).level →
          ¬ ∃ found, some best = some found ∧ p.rank found.bundle = p.rank a.bundle := by
        rintro hne ⟨found, hfound, hrank⟩
        cases hfound
        exact hne (congrArg Rank.level hrank.symm)
      rw [choose_of_some p hbest]
      cases horder : compare (p.rank a.bundle).level (p.rank best.bundle).level with
      | gt =>
          have hlt := Nat.compare_eq_gt.mp horder
          refine .inl ⟨c.put a, rfl, h.put ?_, hother (Nat.ne_of_gt hlt)⟩
          intro found hfound
          rw [hbest] at hfound
          cases hfound
          exact Nat.le_of_lt hlt
      | lt =>
          have hlt := Nat.compare_eq_lt.mp horder
          exact .inl ⟨c, rfl, h.keep hbest (Nat.le_of_lt hlt), hother (Nat.ne_of_lt hlt)⟩
      | eq =>
          have heq := Rank.level_inj.mp (Nat.compare_eq_eq.mp horder)
          exact .inr ⟨best.bundle, a.bundle, rfl, best, rfl, heq.symm⟩

/-- An object is contested among one more copy if it was before, or if the copy is one of it and
ties. -/
theorem contested_append_singleton (id : PathId) (kind : AssetKind) :
    p.Contested (holders (assets ++ [a]) id kind) ↔
      p.Contested (holders assets id kind) ∨
        (a.pathId = id ∧ a.kind = kind) ∧ p.Ties (holders assets id kind) a.bundle := by
  rw [holders_append, holders_singleton, ← Asset.isCopyOf_iff]
  cases a.isCopyOf id kind with
  | true => simp [Precedence.contested_append_singleton]
  | false => simp

/-- **Copies are told apart, or some object is contested**: the bundles of its copies, in the order
in which these are met, tie. -/
theorem ofList_cases (p : Precedence) (assets : List Asset) :
    (∃ c, ofList p assets = .ok c ∧ AreBest p assets c ∧
        ∀ id kind, ¬ p.Contested (holders assets id kind)) ∨
      ∃ id kind first second, ofList p assets = .error (.ambiguous id first second) ∧
        p.Contested (holders assets id kind) := by
  induction assets using List.reverseRecOn with
  | nil =>
      refine .inl ⟨{}, rfl, areBest_nil p, ?_⟩
      intro id kind
      simp [holders]
  | append_singleton assets a ih =>
      have hstep : ofList p (assets ++ [a]) = ofList p assets >>= fun c => choose p c a := by
        simp only [ofList, List.foldlM_append, List.foldlM_cons, List.foldlM_nil, bind_pure]
      simp only [contested_append_singleton]
      rcases ih with ⟨c, hc, hbest, hnone⟩ | ⟨id, kind, first, second, herror, hcontested⟩
      · rw [hstep, hc]
        rcases choose_cases hbest a with ⟨c', hc', hbest', hties⟩ | ⟨first, second, herror, hties⟩
        · refine .inl ⟨c', hc', hbest', ?_⟩
          rintro id kind (hcontested | ⟨⟨rfl, rfl⟩, hties'⟩)
          · exact hnone id kind hcontested
          · exact hties hties'
        · exact .inr ⟨a.pathId, a.kind, first, second, herror, .inr ⟨⟨rfl, rfl⟩, hties⟩⟩
      · rw [hstep, herror]
        exact .inr ⟨id, kind, first, second, rfl, .inl hcontested⟩

end Copies

end CharacterArt
