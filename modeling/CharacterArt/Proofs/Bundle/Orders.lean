import CharacterArt.Proofs.Bundle.Names
import Mathlib.Data.List.Perm.Basic

/-!
# Directories in another order

A directory lists its files in no particular order, and a corpus keeps the last of the files that are
bundles of one name.  So the names of a corpus do not depend on the order, and the rest of it depends
on the order only as far as files compete for a name.

## Main Definitions

* `IsLast` — the last file of a listing that is a bundle of a given name

## Main Results

* `get?_ofListing_eq_some_iff` — a corpus keeps the last file of a name
* `agree_iff` — when all orders agree on what is read off the bundles
* `bundles_map_congr` — corpora with the same lookups have the same bundles
-/

namespace CharacterArt.Corpus

variable {root name : String} {listing order : List (String × Nat)} {e : String × Nat}
  {b : BundleFile}

/-- The bundle that a file is under a given name. -/
def bundleOf (root name : String) (e : String × Nat) : BundleFile :=
  ⟨name, e.2, Path.join root e.1⟩

/-- The last file of a listing that is a bundle of a given name. -/
def IsLast (name : String) (listing : List (String × Nat)) (e : String × Nat) : Prop :=
  IsBundleName name e.1 ∧ ∃ before after, listing = before ++ e :: after ∧
    ∀ e' ∈ after, ¬ IsBundleName name e'.1

theorem IsLast.mem (h : IsLast name listing e) : e ∈ listing := by
  obtain ⟨-, before, after, rfl, -⟩ := h
  exact List.mem_append_right before List.mem_cons_self

/-- If a file is a bundle of a name, one is the last. -/
theorem exists_isLast (he : e ∈ listing) (hname : IsBundleName name e.1) :
    ∃ last, IsLast name listing last := by
  induction listing generalizing e with
  | nil => cases he
  | cons first rest ih =>
      by_cases hrest : ∃ e ∈ rest, IsBundleName name e.1
      · obtain ⟨e, he, hname⟩ := hrest
        obtain ⟨last, hlast, before, after, rfl, hafter⟩ := ih he hname
        exact ⟨last, hlast, first :: before, after, rfl, hafter⟩
      · have hno : ∀ e' ∈ rest, ¬ IsBundleName name e'.1 := fun e' he' hname' =>
          hrest ⟨e', he', hname'⟩
        rcases List.mem_cons.mp he with rfl | he
        · exact ⟨e, hname, [], rest, rfl, hno⟩
        · exact absurd hname (hno e he)

/-- A corpus searches its listing from the end. -/
theorem get?_ofListing : (ofListing root listing).get? name =
    (listing.reverse.find? fun e => (bundleFile? root e.1 e.2).any fun b => b.name == name).bind
      fun e => bundleFile? root e.1 e.2 := by
  have hlast := getElem?_foldl_insert_last BundleFile.name id
    (listing.filterMap fun e => bundleFile? root e.1 e.2) ∅ name
  rw [Std.TreeMap.getElem?_emptyc, Option.or_none, Option.map_id, id, ← List.filterMap_reverse,
    List.find?_filterMap] at hlast
  exact hlast

/-- The search of a corpus stops at the files that are bundles of the name. -/
theorem any_name_iff (he : Path.IsName e.1) :
    ((bundleFile? root e.1 e.2).any fun b => b.name == name) = true ↔ IsBundleName name e.1 := by
  rw [Option.any_eq_true]
  constructor
  · rintro ⟨b, hb, hname⟩
    exact beq_iff_eq.mp hname ▸ ((bundleFile?_eq_some_iff he).mp hb).1
  · exact fun hname => ⟨bundleOf root name e, (bundleFile?_eq_some_iff he).mpr ⟨hname, rfl, rfl⟩,
      beq_self_eq_true name⟩

/-- **A corpus keeps the last file of a name.** -/
theorem get?_ofListing_eq_some_iff (h : IsListing listing) :
    (ofListing root listing).get? name = some b ↔
      ∃ e, IsLast name listing e ∧ b = bundleOf root name e := by
  rw [get?_ofListing, Option.bind_eq_some_iff]
  refine exists_congr fun e => ?_
  rw [List.find?_eq_some_iff_append]
  constructor
  · rintro ⟨⟨hstop, after, before, hsplit, hrest⟩, hb⟩
    have hlisting : listing = before.reverse ++ e :: after.reverse := by
      rw [← List.reverse_reverse listing, hsplit, List.reverse_append, List.reverse_cons,
        List.append_assoc, List.singleton_append]
    have hmem : e ∈ listing := hlisting ▸ List.mem_append_right _ List.mem_cons_self
    have hname := (any_name_iff (h.isName e hmem)).mp hstop
    refine ⟨⟨hname, before.reverse, after.reverse, hlisting, fun e' he' hname' => ?_⟩, ?_⟩
    · have hmem' : e' ∈ listing :=
        hlisting ▸ List.mem_append_right _ (List.mem_cons_of_mem e he')
      have hskip := hrest e' (List.mem_reverse.mp he')
      rw [(any_name_iff (h.isName e' hmem')).mpr hname'] at hskip
      exact absurd hskip (by decide)
    · have hthis : bundleFile? root e.1 e.2 = some (bundleOf root name e) :=
        (bundleFile?_eq_some_iff (h.isName e hmem)).mpr ⟨hname, rfl, rfl⟩
      rw [hthis] at hb
      exact (Option.some.inj hb).symm
  · rintro ⟨hlast, rfl⟩
    have hmem := hlast.mem
    obtain ⟨hname, before, after, rfl, hafter⟩ := hlast
    refine ⟨⟨(any_name_iff (h.isName e hmem)).mpr hname, after.reverse, before.reverse, ?_, ?_⟩,
      (bundleFile?_eq_some_iff (h.isName e hmem)).mpr ⟨hname, rfl, rfl⟩⟩
    · rw [List.reverse_append, List.reverse_cons, List.append_assoc, List.singleton_append]
    · intro e' he'
      have he' := List.mem_reverse.mp he'
      have hmem' := h.isName e' (List.mem_append_right before (List.mem_cons_of_mem e he'))
      rw [Bool.not_eq_true', ← Bool.not_eq_true, any_name_iff hmem']
      exact hafter e' he'

/-- A corpus has no bundle of a name exactly if no file is one. -/
theorem get?_ofListing_eq_none_iff (h : IsListing listing) :
    (ofListing root listing).get? name = none ↔ ∀ e ∈ listing, ¬ IsBundleName name e.1 := by
  constructor
  · intro hnone e he hname
    obtain ⟨last, hlast⟩ := exists_isLast he hname
    rw [(get?_ofListing_eq_some_iff h).mpr ⟨last, hlast, rfl⟩] at hnone
    cases hnone
  · intro hno
    rw [Option.eq_none_iff_forall_ne_some]
    intro b hb
    obtain ⟨e, hlast, -⟩ := (get?_ofListing_eq_some_iff h).mp hb
    exact hno e hlast.mem hlast.1

/-! ### Any two orders -/

/-- Any file of a name is kept in some order. -/
theorem exists_order_last (he : e ∈ listing) (hname : IsBundleName name e.1) :
    ∃ order, order.Perm listing ∧ IsLast name order e :=
  ⟨listing.erase e ++ [e], (List.perm_append_singleton e _).trans (List.perm_cons_erase he).symm,
    hname, listing.erase e, [], rfl, fun _ hnot => absurd hnot List.not_mem_nil⟩

/-- **All orders agree on what is read off the bundles exactly if files of one name do.** -/
theorem agree_iff {γ : Type} (root : String) (f : BundleFile → γ) (h : IsListing listing) :
    (∀ o₁ o₂, o₁.Perm listing → o₂.Perm listing → ∀ name,
      ((ofListing root o₁).get? name).map f = ((ofListing root o₂).get? name).map f) ↔
    ∀ name, ∀ e₁ ∈ listing, ∀ e₂ ∈ listing, IsBundleName name e₁.1 → IsBundleName name e₂.1 →
      f (bundleOf root name e₁) = f (bundleOf root name e₂) := by
  have hkept : ∀ {order name e}, order.Perm listing → IsLast name order e →
      (ofListing root order).get? name = some (bundleOf root name e) := fun horder hlast =>
    (get?_ofListing_eq_some_iff (h.perm horder)).mpr ⟨_, hlast, rfl⟩
  constructor
  · intro hagree name e₁ he₁ e₂ he₂ hname₁ hname₂
    obtain ⟨o₁, ho₁, hlast₁⟩ := exists_order_last he₁ hname₁
    obtain ⟨o₂, ho₂, hlast₂⟩ := exists_order_last he₂ hname₂
    have hsame := hagree o₁ o₂ ho₁ ho₂ name
    rw [hkept ho₁ hlast₁, hkept ho₂ hlast₂] at hsame
    exact Option.some.inj hsame
  · intro hsame o₁ o₂ ho₁ ho₂ name
    cases hget₁ : (ofListing root o₁).get? name with
    | none =>
        have hno := (get?_ofListing_eq_none_iff (h.perm ho₁)).mp hget₁
        rw [(get?_ofListing_eq_none_iff (h.perm ho₂)).mpr fun e he =>
          hno e (ho₁.symm.subset (ho₂.subset he))]
    | some b₁ =>
        obtain ⟨e₁, hlast₁, rfl⟩ := (get?_ofListing_eq_some_iff (h.perm ho₁)).mp hget₁
        cases hget₂ : (ofListing root o₂).get? name with
        | none =>
            have hno := (get?_ofListing_eq_none_iff (h.perm ho₂)).mp hget₂
            exact absurd hlast₁.1 (hno e₁ (ho₂.symm.subset (ho₁.subset hlast₁.mem)))
        | some b₂ =>
            obtain ⟨e₂, hlast₂, rfl⟩ := (get?_ofListing_eq_some_iff (h.perm ho₂)).mp hget₂
            exact congrArg some (hsame name e₁ (ho₁.subset hlast₁.mem) e₂ (ho₂.subset hlast₂.mem)
              hlast₁.1 hlast₂.1)

/-! ### The bundles as a list -/

theorem named_ofListing : (ofListing root listing).Named :=
  fun _ _ h => (exists_file_of_get? h).1

/-- Corpora with the same lookups have the same bundles, as far as these are looked at. -/
theorem bundles_map_congr {γ : Type} {c c' : Corpus} (f : BundleFile → γ)
    (h : ∀ name, (c.get? name).map f = (c'.get? name).map f) :
    c.bundles.map f = c'.bundles.map f := by
  have hlist : ∀ c : Corpus, c.bundles.map f = ((c.files.map fun _ b => f b).toList).map Prod.snd := by
    intro c
    rw [Std.TreeMap.toList_map, bundles, List.map_map, List.map_map]
    rfl
  rw [hlist, hlist]
  refine congrArg _ (Std.TreeMap.Equiv.toList_eq (Std.TreeMap.Equiv.of_forall_constGet?_eq ?_))
  intro name
  have hname := h name
  simp only [get?] at hname
  rw [Std.TreeMap.getElem?_map, Std.TreeMap.getElem?_map]
  exact hname

/-- Lookups are decided by the bundles. -/
theorem get?_congr {c c' : Corpus} (hc : c.Named) (hc' : c'.Named) (h : c.bundles = c'.bundles)
    (name : String) : c.get? name = c'.get? name := by
  have hsub : ∀ {c c' : Corpus}, c.Named → c'.Named → c.bundles = c'.bundles → ∀ {b : BundleFile},
      c.get? name = some b → c'.get? name = some b := by
    intro c c' hc hc' h b hb
    obtain rfl := hc name b hb
    rw [← mem_bundles hc', ← h]
    exact (mem_bundles hc).mpr hb
  exact Option.ext fun b => ⟨hsub hc hc' h, hsub hc' hc h.symm⟩

end CharacterArt.Corpus
