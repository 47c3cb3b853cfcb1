import CharacterArt.Proofs.Failures
import CharacterArt.Proofs.Resolution.Opened

/-!
# When a resolution is ambiguous

A resolution refuses an object if a copy of it ties with the copies in bundles of lesser names.  So
two copies of the highest rank are refused wherever they stand, but so are two copies of a lower
rank if both come before the first copy that outranks them.

## Main Definitions

* `Unambiguous` — a computation that fails for other reasons only

## Main Results

* `Resolution.resolve_ambiguous_iff` — ambiguity by the ranks of the copies
-/

namespace CharacterArt

/-! ### Failures of other kinds -/

/-- If a computation fails, then not because of an ambiguity. -/
def Unambiguous {α : Type} (x : Except Error α) : Prop :=
  ∀ id first second, x ≠ .error (.ambiguous id first second)

namespace Unambiguous

variable {α β : Type}

theorem ok (a : α) : Unambiguous (.ok a : Except Error α) :=
  nofun

theorem bind {x : Except Error α} {f : α → Except Error β} (hx : Unambiguous x)
    (hf : ∀ a, Unambiguous (f a)) : Unambiguous (x >>= f) := by
  intro id first second h
  rcases bind_eq_error_iff.mp h with herror | ⟨a, -, herror⟩
  · exact hx id first second herror
  · exact hf a id first second herror

theorem map {x : Except Error α} (hx : Unambiguous x) (f : α → β) : Unambiguous (x.map f) := by
  intro id first second h
  exact hx id first second (map_eq_error_iff.mp h)

theorem foldlM {f : β → α → Except Error β} (hf : ∀ b a, Unambiguous (f b a)) (xs : List α)
    (b : β) : Unambiguous (xs.foldlM f b) := by
  induction xs generalizing b with
  | nil => exact ok b
  | cons x rest ih =>
      rw [List.foldlM_cons]
      exact (hf b x).bind ih

/-- A computation whose failures are all of some kind meets no ambiguity if that is none. -/
theorem of_failsOnly {P : Error → Prop} {x : Except Error α} (hx : FailsOnly P x)
    (hP : ∀ id first second, ¬ P (.ambiguous id first second)) : Unambiguous x :=
  fun id first second h => hP id first second (hx _ h)

/-! Reading bundles -/

theorem readBundle (d : Files) (b : BundleFile) : Unambiguous (Corpus.readBundle d b) :=
  of_failsOnly (Corpus.failsOnly_readBundle d b) fun _ _ _ => id

theorem openBundle (c : Corpus) (d : Files) (name : String) :
    Unambiguous (c.openBundle d name) := by
  unfold Corpus.openBundle
  split
  · exact nofun
  · exact readBundle d _

theorem decode (b : Bundle) (e : Bundle.Entry) : Unambiguous (b.decode e) := by
  unfold Bundle.decode
  split
  · exact nofun
  · exact map (of_failsOnly (b.failsOnly_readPicture e) fun _ _ _ => id) _

theorem decodeOne (c : Corpus) (d : Files) (name : String) (id : PathId) (kind : AssetKind) :
    Unambiguous (c.decodeOne d name id kind) := by
  refine bind (openBundle c d name) fun b => ?_
  split
  · exact decode b _
  · exact nofun

/-! Looking up names -/

theorem findByName? (s : Index.Store) (name : String) (kind : AssetKind) :
    Unambiguous (s.findByName? name kind) :=
  of_failsOnly (s.failsOnly_findByName? name kind) fun _ _ _ => id

theorem findNamed (s : Index.Store) (name : String) :
    Unambiguous (Resolution.findNamed s name) := by
  refine bind (findByName? s name .texture) fun found => ?_
  cases found with
  | some record => exact ok (some record)
  | none => exact findByName? s name .sprite

/-! Recovering colors -/

theorem colorFor (s : Index.Store) (c : Corpus) (d : Files) (mask : Asset) :
    Unambiguous (Resolution.colorFor s c d mask) := by
  unfold Resolution.colorFor
  split
  · exact ok (some mask)
  · refine bind (findNamed s _) fun found => ?_
    cases found with
    | none => exact ok none
    | some record => exact bind (decodeOne c d _ _ _) fun color => ok (some color)

/-- **Recovering colors meets no ambiguity.** -/
theorem recover (s : Index.Store) (c : Corpus) (d : Files) (images : Std.TreeMap PathId Asset)
    (rs : Requirements) : Unambiguous (Resolution.recover s c d images rs) := by
  refine foldlM (fun images r => ?_) rs images
  unfold Resolution.recoverOne
  split
  · exact ok images
  · split
    · exact ok images
    · refine bind (colorFor s c d _) fun color => ?_
      cases color with
      | none => exact ok images
      | some color => exact ok (images.insert r.colorId color)

end Unambiguous

namespace Resolution

variable {s : Index.Store} {c : Corpus} {d : Files} {p : Precedence} {rs : Requirements}

/-- Only required objects have copies among the required assets. -/
theorem holders_filter (assets : List Asset) (ids : List PathId) (id : PathId) (kind : AssetKind) :
    holders (assets.filter fun a => ids.contains a.pathId) id kind =
      if id ∈ ids then holders assets id kind else [] := by
  rw [holders, List.filter_filter]
  split
  · next hid =>
      unfold holders
      congr 2
      funext a
      rw [Bool.and_eq_left_iff_imp]
      intro hcopy
      rw [(Asset.isCopyOf_iff.mp hcopy).1]
      exact List.contains_iff_mem.mpr hid
  · next hid =>
      rw [List.map_eq_nil_iff, List.filter_eq_nil_iff]
      rintro a - hboth
      rw [Bool.and_eq_true, List.contains_iff_mem] at hboth
      exact hid ((Asset.isCopyOf_iff.mp hboth.1).1 ▸ hboth.2)

/-- A resolution chooses among the copies of the required objects, and what it does after that meets
no ambiguity. -/
theorem exists_resolve_eq (h : s.InSync c d) (hdecodable : Decodable c d (Requirements.ids rs))
    (p : Precedence) :
    ∃ required rest, resolve s c d p rs = Copies.ofList p required >>= rest ∧
      (∀ copies, Unambiguous (rest copies)) ∧
      ∀ id kind, holders required id kind =
        if id ∈ Requirements.ids rs then c.copies d id kind else [] := by
  obtain ⟨parts, hparts, hcopies⟩ := exists_assets h hdecodable
  refine ⟨parts.flatten.filter fun a => (Requirements.ids rs).contains a.pathId,
    fun copies => recover s c d copies.merged rs >>= fun images => .ok {
      images := images
      group := Alpha.MaskGroup.ofList (parts.flatten.filter joinsGroup)
      opened := (c.bundles.filter (opens d (Requirements.ids rs))).map BundleFile.name
      diagnostics := invalidIds rs ++ gaps images rs }, ?_, ?_, ?_⟩
  · rw [resolve, bundlesWith_eq h]
    -- only the opening of bundles is left in front of the choice
    change (List.mapM (m := Except Error) _ _ >>= _) = _
    rw [hparts]
    rfl
  · intro copies
    exact (Unambiguous.recover s c d copies.merged rs).bind fun images => .ok _
  · intro id kind
    rw [holders_filter]
    split
    · next hid => exact hcopies id hid kind
    · rfl

/-- **A resolution is ambiguous exactly if some required object is contested among its copies, in
the order of the names of their bundles.** -/
theorem resolve_ambiguous_iff_contested (h : s.InSync c d)
    (hdecodable : Decodable c d (Requirements.ids rs)) :
    (∃ id first second, resolve s c d p rs = .error (.ambiguous id first second)) ↔
      ∃ id ∈ Requirements.ids rs, ∃ kind, p.Contested (c.copies d id kind) := by
  obtain ⟨required, rest, hresolve, hrest, hholders⟩ := exists_resolve_eq h hdecodable p
  rw [hresolve]
  rcases Copies.ofList_cases p required with
    ⟨copies, hcopies, -, hnone⟩ | ⟨id, kind, first, second, herror, hcontested⟩
  · rw [hcopies]
    constructor
    · rintro ⟨id, first, second, herror⟩
      exact absurd herror (hrest copies id first second)
    · rintro ⟨id, hid, kind, hcontested⟩
      have hnot := hnone id kind
      rw [hholders, if_pos hid] at hnot
      exact absurd hcontested hnot
  · rw [herror]
    refine iff_of_true ⟨id, first, second, rfl⟩ ?_
    rw [hholders] at hcontested
    split at hcontested
    · next hid => exact ⟨id, hid, kind, hcontested⟩
    · exact absurd hcontested Precedence.not_contested_nil

/-- **A resolution is ambiguous exactly if some required object has two copies that share the
highest rank, or two copies of a lower rank in bundles whose names come before that of the first
copy that outranks them.** -/
theorem resolve_ambiguous_iff (h : s.InSync c d)
    (hdecodable : Decodable c d (Requirements.ids rs)) :
    (∃ id first second, resolve s c d p rs = .error (.ambiguous id first second)) ↔
      ∃ id ∈ Requirements.ids rs, ∃ kind,
        2 ≤ (p.top (c.copies d id kind)).length ∨ p.TiesEarly (c.copies d id kind) := by
  simp only [resolve_ambiguous_iff_contested h hdecodable, Precedence.contested_iff]

/-! ### A tie that is outranked

Two plain bundles and a preferred one hold copies of one texture.  Whether the plain ones count
depends on the name of the preferred one. -/

namespace Outranked

/-- The bundles `art1` and `art2` and a third one, each with a copy of one texture. -/
def files (best : String) : Files :=
  Corpus.diskWith "b" (["art1.ab", "art2.ab", best ++ ".ab"].map fun name =>
    (name, [.ofPicture .texture 1 "art" "" default]))

def corpus (best : String) : Corpus :=
  Corpus.scanned (files best) "/b"

/-- The third bundle is the preferred one. -/
def precedence : Precedence where
  preferred := ["best"]
  deferred := []

def requirements : Requirements :=
  [{ owner := "A", index := 0, colorId := 1 }]

def tables (best : String) : Index.Tables := fun name _ =>
  Corpus.table (files best) ⟨name, 0, "/b/" ++ name ++ ".ab"⟩

theorem exists_index (best : String) (hscan : (Corpus.scan (files best) "/b").isOk = true)
    (hread : ∀ b ∈ (corpus best).bundles,
      Index.tablesOn (files best) b = .ok (tables best b.name b.size)) :
    ∃ s : Index.Store, s.InSync (corpus best) (files best) := by
  have hcorpus : Corpus.scan (files best) "/b" = .ok (corpus best) := Corpus.scan_eq_scanned hscan
  obtain ⟨s, -, -, hsync⟩ := Index.Store.exists_inSync hcorpus hread
  exact ⟨s, hsync⟩

theorem ids_requirements : Requirements.ids requirements = [1] := by
  cbv

/-- All that is asked of the bundles if the preferred one comes first, in one evaluation. -/
theorem evaluated_first :
    (Corpus.scan (files "a_best") "/b").isOk = true ∧
    (∀ b ∈ (corpus "a_best").bundles,
      Index.tablesOn (files "a_best") b = .ok (tables "a_best" b.name b.size)) ∧
    (∀ b ∈ (corpus "a_best").bundles, opens (files "a_best") [1] b = true →
      ((corpus "a_best").decodeWhere (files "a_best") b.name (isWanted [1])).isOk = true) ∧
    (corpus "a_best").copies (files "a_best") 1 .texture = ["a_best", "art1", "art2"] ∧
    (corpus "a_best").copies (files "a_best") 1 .sprite = [] := by
  decide +kernel

/-- The same if it comes last. -/
theorem evaluated_last :
    (Corpus.scan (files "best") "/b").isOk = true ∧
    (∀ b ∈ (corpus "best").bundles,
      Index.tablesOn (files "best") b = .ok (tables "best" b.name b.size)) ∧
    (∀ b ∈ (corpus "best").bundles, opens (files "best") [1] b = true →
      ((corpus "best").decodeWhere (files "best") b.name (isWanted [1])).isOk = true) ∧
    (corpus "best").copies (files "best") 1 .texture = ["art1", "art2", "best"] ∧
    (corpus "best").copies (files "best") 1 .sprite = [] := by
  decide +kernel

end Outranked

open Outranked in
theorem resolve_ambiguous_iff_outranked_first :
    ∃ s : Index.Store, s.InSync (corpus "a_best") (files "a_best") ∧
      Decodable (corpus "a_best") (files "a_best") (Requirements.ids requirements) ∧
      (corpus "a_best").copies (files "a_best") 1 .texture = ["a_best", "art1", "art2"] ∧
      ¬ ∃ id first second, resolve s (corpus "a_best") (files "a_best") precedence requirements =
        .error (.ambiguous id first second) := by
  obtain ⟨hscan, hread, hdecode, hcopies, hnone⟩ := evaluated_first
  rw [← ids_requirements] at hdecode
  obtain ⟨s, hsync⟩ := exists_index "a_best" hscan hread
  have hdecodable : Decodable (corpus "a_best") (files "a_best") (Requirements.ids requirements) :=
    decodable_of_decodeWhere hdecode
  refine ⟨s, hsync, hdecodable, hcopies, ?_⟩
  rw [resolve_ambiguous_iff hsync hdecodable]
  rintro ⟨id, hid, kind, hcontested⟩
  rw [ids_requirements] at hid
  obtain rfl := List.mem_singleton.mp hid
  cases kind with
  | texture =>
      rw [hcopies] at hcontested
      rcases hcontested with htop | hearly
      · exact absurd htop (by decide)
      · exact Precedence.not_tiesEarly_cons (by decide) hearly
  | sprite =>
      rw [hnone, ← Precedence.contested_iff] at hcontested
      exact Precedence.not_contested_nil hcontested

open Outranked in
/-- Two copies of a lower rank are refused although a third one outranks both, if its bundle has a
greater name. -/
theorem resolve_ambiguous_outranked_last :
    ∃ s : Index.Store, s.InSync (corpus "best") (files "best") ∧
      Decodable (corpus "best") (files "best") (Requirements.ids requirements) ∧
      (∃ id first second, resolve s (corpus "best") (files "best") precedence requirements =
        .error (.ambiguous id first second)) ∧
      ¬ ∃ id ∈ Requirements.ids requirements, ∃ kind,
        2 ≤ (precedence.top ((corpus "best").copies (files "best") id kind)).length := by
  obtain ⟨hscan, hread, hdecode, hcopies, hnone⟩ := evaluated_last
  rw [← ids_requirements] at hdecode
  obtain ⟨s, hsync⟩ := exists_index "best" hscan hread
  have hdecodable : Decodable (corpus "best") (files "best") (Requirements.ids requirements) :=
    decodable_of_decodeWhere hdecode
  refine ⟨s, hsync, hdecodable, ?_, ?_⟩
  · rw [resolve_ambiguous_iff_contested hsync hdecodable, ids_requirements]
    refine ⟨1, List.mem_singleton_self 1, .texture, ?_⟩
    rw [hcopies]
    exact ⟨["art1"], "art2", ["best"], rfl, by decide⟩
  · rw [ids_requirements]
    rintro ⟨id, hid, kind, htop⟩
    obtain rfl := List.mem_singleton.mp hid
    cases kind with
    | texture =>
        rw [hcopies] at htop
        exact absurd htop (by decide)
    | sprite =>
        rw [hnone] at htop
        exact absurd htop (by decide)

end Resolution

end CharacterArt
