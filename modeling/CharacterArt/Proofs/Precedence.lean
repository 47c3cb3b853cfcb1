import CharacterArt.Precedence
import Mathlib.Data.List.Basic

/-!
# Ties between bundles

Copies of one object are met one after another, and each is compared with the best one so far alone.
So it matters in which order their bundles stand: a tie of two bundles is noticed unless a bundle of
higher rank stands before the second of them.

## Main Definitions

* `Precedence.Ties` — a bundle has the highest rank so far, and not as the first one
* `Precedence.Contested` — some bundle of a list ties with those before it
* `Precedence.top` — the bundles of the highest rank in a list
* `Precedence.TiesEarly` — bundles tie before one comes that outranks them
* `Precedence.Wins` — a bundle outranks all others, in whatever order they stand

## Main Results

* `Precedence.contested_append_singleton` — one more bundle
* `Precedence.contested_iff` — a list is contested if its highest rank is shared, or another one is
  shared too early
* `Precedence.wins_of_mem_top` — a list that is not contested has a winner
* `Precedence.not_tiesEarly_cons` — no rank is shared too early if the highest one comes first
-/

namespace CharacterArt

/-- Ranks are told apart by their levels. -/
theorem Rank.level_inj {r q : Rank} : r.level = q.level ↔ r = q := by
  cases r <;> cases q <;> decide

namespace Precedence

variable {p : Precedence} {bundles : List String} {b : String}

/-- A bundle has the highest rank of those before it, and one of them has it too. -/
def Ties (p : Precedence) (before : List String) (b : String) : Prop :=
  (∃ a ∈ before, p.rank a = p.rank b) ∧ ∀ a ∈ before, (p.rank a).level ≤ (p.rank b).level

instance (p : Precedence) (before : List String) (b : String) : Decidable (p.Ties before b) :=
  inferInstanceAs (Decidable ((∃ a ∈ before, p.rank a = p.rank b) ∧
    ∀ a ∈ before, (p.rank a).level ≤ (p.rank b).level))

/-- Some bundle ties with those before it. -/
def Contested (p : Precedence) (bundles : List String) : Prop :=
  ∃ before b after, bundles = before ++ b :: after ∧ p.Ties before b

/-- The bundles that no other one outranks. -/
def top (p : Precedence) (bundles : List String) : List String :=
  bundles.filter fun b => bundles.all fun a => decide ((p.rank a).level ≤ (p.rank b).level)

/-- Some bundle ties with those before it and is outranked by one behind it. -/
def TiesEarly (p : Precedence) (bundles : List String) : Prop :=
  ∃ before b after, bundles = before ++ b :: after ∧ p.Ties before b ∧
    ∃ a ∈ after, (p.rank b).level < (p.rank a).level

@[simp] theorem not_contested_nil : ¬ p.Contested [] := by
  rintro ⟨before, b, after, h, -⟩
  simp at h

/-- **One more bundle makes a list contested only by a tie of its own.** -/
theorem contested_append_singleton :
    p.Contested (bundles ++ [b]) ↔ p.Contested bundles ∨ p.Ties bundles b := by
  constructor
  · rintro ⟨before, last, after, hbundles, hties⟩
    -- The tie is at the last place, or the last bundle stands behind it and can be dropped.
    rcases List.eq_nil_or_concat after with rfl | ⟨front, c, rfl⟩
    · obtain ⟨rfl, hlast⟩ := List.append_inj' hbundles rfl
      obtain rfl : b = last := by simpa using hlast
      exact .inr hties
    · rw [List.concat_eq_append, ← List.cons_append, ← List.append_assoc] at hbundles
      obtain ⟨rfl, -⟩ := List.append_inj' hbundles rfl
      exact .inl ⟨before, last, front, rfl, hties⟩
  · rintro (⟨before, c, after, rfl, hties⟩ | hties)
    · exact ⟨before, c, after ++ [b], by simp, hties⟩
    · exact ⟨bundles, b, [], rfl, hties⟩

theorem mem_top : b ∈ p.top bundles ↔
    b ∈ bundles ∧ ∀ a ∈ bundles, (p.rank a).level ≤ (p.rank b).level := by
  simp [top]

/-- Two bundles of the highest rank tie when the second one is met. -/
theorem contested_of_top (h : 2 ≤ (p.top bundles).length) : p.Contested bundles := by
  obtain ⟨a, b, rest, htop⟩ : ∃ a b rest, p.top bundles = a :: b :: rest := by
    match hlist : p.top bundles with
    | [] | [_] => simp [hlist] at h
    | a :: b :: rest => exact ⟨a, b, rest, rfl⟩
  have ha := mem_top.mp (htop ▸ List.mem_cons_self : a ∈ p.top bundles)
  have hb := mem_top.mp (htop ▸ List.mem_cons_of_mem a List.mem_cons_self : b ∈ p.top bundles)
  -- the first and the second of them, and what stands between
  obtain ⟨front, behind, hsplit, -, -, hbehind⟩ := List.filter_eq_cons_iff.mp htop
  obtain ⟨between, after, rfl, -, -, -⟩ := List.filter_eq_cons_iff.mp hbehind
  have hbefore : ∀ c ∈ front ++ a :: between, c ∈ bundles := by
    intro c hc
    rw [hsplit]
    rcases List.mem_append.mp hc with hc | hc
    · exact List.mem_append_left _ hc
    · refine List.mem_append_right _ ?_
      rw [← List.cons_append]
      exact List.mem_append_left _ hc
  refine ⟨front ++ a :: between, b, after, by rw [hsplit]; simp, ⟨a, by simp, ?_⟩, ?_⟩
  · exact Rank.level_inj.mp (Nat.le_antisymm (hb.2 a ha.1) (ha.2 b hb.1))
  · intro c hc
    exact hb.2 c (hbefore c hc)

/-- Bundles that tie and are not outranked later have the highest rank of all. -/
theorem two_le_length_top {before after : List String} (hties : p.Ties before b)
    (hafter : ∀ a ∈ after, (p.rank a).level ≤ (p.rank b).level) :
    2 ≤ (p.top (before ++ b :: after)).length := by
  obtain ⟨⟨a, ha, hrank⟩, hbefore⟩ := hties
  have hall : ∀ c ∈ before ++ b :: after, (p.rank c).level ≤ (p.rank b).level := by
    intro c hc
    rcases List.mem_append.mp hc with hc | hc
    · exact hbefore c hc
    · rcases List.mem_cons.mp hc with rfl | hc
      · exact Nat.le_refl _
      · exact hafter c hc
  rw [top, List.filter_append, List.length_append]
  refine Nat.add_le_add (a := 1) (c := 1) ?_ ?_
  · apply List.length_pos_of_mem (a := a)
    rw [List.mem_filter, List.all_eq_true]
    refine ⟨ha, fun c hc => decide_eq_true ?_⟩
    rw [hrank]
    exact hall c hc
  · apply List.length_pos_of_mem (a := b)
    rw [List.mem_filter, List.all_eq_true]
    exact ⟨List.mem_cons_self, fun c hc => decide_eq_true (hall c hc)⟩

/-- **A list of bundles is contested exactly if two of them share the highest rank, or two of a
lower rank stand before the first one that outranks them.** -/
theorem contested_iff :
    p.Contested bundles ↔ 2 ≤ (p.top bundles).length ∨ p.TiesEarly bundles := by
  constructor
  · rintro ⟨before, b, after, rfl, hties⟩
    by_cases hbetter : ∃ a ∈ after, (p.rank b).level < (p.rank a).level
    · exact .inr ⟨before, b, after, rfl, hties, hbetter⟩
    · refine .inl (two_le_length_top hties fun a ha => ?_)
      exact Nat.le_of_not_lt fun hlt => hbetter ⟨a, ha, hlt⟩
  · rintro (htop | ⟨before, b, after, hbundles, hties, -⟩)
    · exact contested_of_top htop
    · exact ⟨before, b, after, hbundles, hties⟩

/-! ### The only bundle of the highest rank -/

/-- A bundle outranks all others of a list, wherever it stands among them. -/
def Wins (p : Precedence) (b : String) (bundles : List String) : Prop :=
  ∃ others, bundles.Perm (b :: others) ∧ ∀ a ∈ others, (p.rank a).level < (p.rank b).level

namespace Wins

theorem mem (h : p.Wins b bundles) : b ∈ bundles := by
  obtain ⟨others, hperm, -⟩ := h
  exact hperm.mem_iff.mpr List.mem_cons_self

/-- The winner stands in the list once. -/
theorem count_eq_one (h : p.Wins b bundles) : bundles.count b = 1 := by
  obtain ⟨others, hperm, hlt⟩ := h
  rw [hperm.count_eq, List.count_cons_self, Nat.succ_inj, List.count_eq_zero]
  exact fun hb => Nat.lt_irrefl _ (hlt b hb)

/-- Only one bundle can outrank all others. -/
theorem unique {b' : String} (h : p.Wins b bundles) (h' : p.Wins b' bundles) : b = b' := by
  obtain ⟨others, hperm, hlt⟩ := h
  obtain ⟨others', hperm', hlt'⟩ := id h'
  by_contra hne
  have hmem' : b' ∈ others :=
    List.mem_of_ne_of_mem (Ne.symm hne) (hperm.mem_iff.mp h'.mem)
  have hmem : b ∈ others' :=
    List.mem_of_ne_of_mem hne (hperm'.mem_iff.mp (hperm.mem_iff.mpr List.mem_cons_self))
  exact Nat.lt_asymm (hlt b' hmem') (hlt' b hmem)

/-- Names do not count, only ranks do. -/
theorem map (h : p.Wins b bundles) {f : String → String}
    (hrank : ∀ a ∈ bundles, p.rank (f a) = p.rank a) : p.Wins (f b) (bundles.map f) := by
  have hb := hrank b h.mem
  obtain ⟨others, hperm, hlt⟩ := h
  refine ⟨others.map f, hperm.map f, ?_⟩
  intro x hx
  obtain ⟨a, ha, rfl⟩ := List.mem_map.mp hx
  rw [hb, hrank a (hperm.mem_iff.mpr (List.mem_cons_of_mem b ha))]
  exact hlt a ha

/-- It does not count in which order the bundles stand. -/
theorem perm {bundles' : List String} (h : p.Wins b bundles) (hperm : bundles'.Perm bundles) :
    p.Wins b bundles' := by
  obtain ⟨others, hothers, hlt⟩ := h
  exact ⟨others, hperm.trans hothers, hlt⟩

end Wins

/-- **A bundle of the highest rank outranks all others of a list that is not contested.** -/
theorem wins_of_mem_top (hcontested : ¬ p.Contested bundles) (h : b ∈ p.top bundles) :
    p.Wins b bundles := by
  have htop : p.top bundles = [b] := by
    have hlength : (p.top bundles).length < 2 :=
      Nat.lt_of_not_le fun h2 => hcontested (contested_of_top h2)
    have hone : (p.top bundles).length = 1 :=
      Nat.le_antisymm (Nat.le_of_lt_succ hlength) (List.length_pos_of_mem h)
    obtain ⟨x, hx⟩ := List.length_eq_one_iff.mp hone
    rw [hx, List.mem_singleton] at h
    rw [hx, h]
  -- what is not of the highest rank is outranked by something
  refine ⟨bundles.filter fun a =>
    !bundles.all fun x => decide ((p.rank x).level ≤ (p.rank a).level), ?_, ?_⟩
  · have hperm := List.filter_append_perm
      (fun a => bundles.all fun x => decide ((p.rank x).level ≤ (p.rank a).level)) bundles
    rw [← top, htop] at hperm
    exact hperm.symm
  · intro a ha
    obtain ⟨-, ha⟩ := List.mem_filter.mp ha
    simp only [Bool.not_eq_true', List.all_eq_false, decide_eq_true_eq, Nat.not_le] at ha
    obtain ⟨x, hx, hlt⟩ := ha
    exact Nat.lt_of_lt_of_le hlt ((mem_top.mp h).2 x hx)

/-- If the first bundle has the highest rank, no tie comes too early. -/
theorem not_tiesEarly_cons (h : ∀ a ∈ bundles, (p.rank a).level ≤ (p.rank b).level) :
    ¬ p.TiesEarly (b :: bundles) := by
  rintro ⟨before, last, after, hbundles, ⟨⟨x, hx, -⟩, hbefore⟩, a, ha, hlt⟩
  cases before with
  | nil => simp at hx
  | cons first front =>
      rw [List.cons_append, List.cons.injEq] at hbundles
      obtain ⟨rfl, rfl⟩ := hbundles
      have hle := hbefore b List.mem_cons_self
      have hba := h a (by simp [ha])
      omega

end Precedence

end CharacterArt
