import CharacterArt.Proofs.Bundle.Listing
import CharacterArt.Proofs.Disk.Names
import Mathlib.Data.List.TakeWhile

/-!
# Names of bundle files

A file of a directory is a bundle if its name is that of the bundle, a dot, and the extension of
bundles in some letter case.  So up to four files can be bundles of one name, and the letter case of
the extension tells them apart.

## Main Definitions

* `IsListing` — what a directory may list: names of files, each one once
* `IsBundleName` — the name of a file that is a bundle of a given name

## Main Results

* `Path.splitDot_eq_iff` — a name is cut at its last dot
* `bundleFile?_eq_some_iff` — which file is a bundle, and of which name
* `exists_listing_of_scan` — a corpus is made from what its directory lists
-/

namespace CharacterArt

namespace Path

variable {name stem extension : String}

/-- **A name is cut at its last dot**, unless nothing stands before that dot. -/
theorem splitDot_eq_iff : splitDot name = (stem, some extension) ↔
    stem ≠ "" ∧ '.' ∉ extension.toList ∧ name = stem ++ "." ++ extension := by
  constructor
  · intro h
    unfold splitDot at h
    dsimp only at h
    split at h
    · next dot c before hback =>
        obtain ⟨rfl, hextension⟩ := Prod.mk.inj h
        cases hextension
        obtain ⟨hdot, hsplit⟩ := Text.append_of_dropWhile hback
        refine ⟨?_, ?_, ?_⟩
        · rw [ne_eq, String.ofList_eq_empty_iff, List.reverse_eq_nil_iff]
          exact List.cons_ne_nil c before
        · rwa [String.toList_ofList, List.mem_reverse]
        · have hname := congrArg List.reverse hsplit
          rw [List.reverse_append, List.reverse_reverse, List.reverse_cons] at hname
          refine String.toList_inj.mp (hname.symm.trans ?_)
          simp
    · cases h
  · rintro ⟨hstem, hdot, rfl⟩
    obtain ⟨c, before, hbefore⟩ : ∃ c before, stem.toList.reverse = c :: before :=
      List.exists_cons_of_ne_nil (by simpa using hstem)
    have hname : (stem ++ "." ++ extension).toList = stem.toList ++ '.' :: extension.toList := by
      simp
    unfold splitDot
    dsimp only
    rw [hname, Text.takeWhile_reverse_append hdot, Text.dropWhile_reverse_append hdot, hbefore]
    dsimp only
    rw [← hbefore, List.reverse_reverse, List.reverse_reverse, String.ofList_toList,
      String.ofList_toList]

/-- Joining tells names of files apart. -/
theorem join_inj {base file other : String} (hfile : '/' ∉ file.toList) (hother : '/' ∉ other.toList)
    (h : join base file = join base other) : file = other := by
  obtain ⟨front, hfront⟩ := exists_join base
  rw [hfront _ (isAbsolute_of_no_slash hfile), hfront _ (isAbsolute_of_no_slash hother),
    ← String.toList_inj, String.toList_append, String.toList_append] at h
  exact String.toList_inj.mp (List.append_cancel_left h)

/-- Files that differ at most in their extensions lie at one path exactly if these are the same. -/
theorem join_extension_iff {base other : String} (hslash : '/' ∉ (name ++ "." ++ extension).toList)
    (hother : '/' ∉ other.toList) :
    join base (name ++ "." ++ other) = join base (name ++ "." ++ extension) ↔ extension = other := by
  constructor
  · intro h
    have hslash' : '/' ∉ (name ++ "." ++ other).toList := by
      rw [String.toList_append, List.mem_append, not_or] at hslash ⊢
      exact ⟨hslash.1, hother⟩
    have hnames := join_inj hslash' hslash h
    rw [← String.toList_inj, String.toList_append, String.toList_append (t := extension)] at hnames
    exact String.toList_inj.mp (List.append_cancel_left hnames).symm
  · rintro rfl
    rfl

end Path

namespace Corpus

variable {root file name extension : String} {size : Nat} {b : BundleFile}

/-- The name of a file that is a bundle of a given name. -/
def IsBundleName (name file : String) : Prop :=
  name ≠ "" ∧ ∃ extension, isBundleExtension extension = true ∧ file = name ++ "." ++ extension

theorem no_dot_of_isBundleExtension (h : isBundleExtension extension = true) :
    '.' ∉ extension.toList := by
  intro hmem
  have hsmall : extension.toList.map Char.toLower = ['a', 'b'] := by
    rw [← String.toList_map, beq_iff_eq.mp h]
    rfl
  have hdot : Char.toLower '.' ∈ ['a', 'b'] := hsmall ▸ List.mem_map_of_mem hmem
  exact absurd hdot (by decide)

/-- **A file is a bundle of a name exactly if its own name is that name with the extension of
bundles**, in any letter case. -/
theorem bundleFile?_eq_some_iff (hfile : Path.IsName file) : bundleFile? root file size = some b ↔
    IsBundleName b.name file ∧ b.size = size ∧ b.path = Path.join root file := by
  obtain ⟨name, bytes, path⟩ := b
  have hcut : ∀ stem extension, (Path.extension file = some extension ∧ Path.stem file = some stem) ↔
      Path.splitDot file = (stem, some extension) := by
    intro stem extension
    rw [Path.extension, Path.stem, hfile.fileName_eq, Option.bind_some, Option.map_some,
      Option.some.injEq, Prod.ext_iff]
    exact and_comm
  constructor
  · intro h
    unfold bundleFile? at h
    split at h
    · next extension stem hextension hstem =>
        obtain ⟨hbundle, heq⟩ := Option.ite_none_right_eq_some.mp h
        cases heq
        obtain ⟨hne, -, hname⟩ := Path.splitDot_eq_iff.mp ((hcut _ _).mp ⟨hextension, hstem⟩)
        exact ⟨⟨hne, extension, hbundle, hname⟩, rfl, rfl⟩
    · cases h
  · rintro ⟨⟨hne, extension, hbundle, hname⟩, rfl, rfl⟩
    obtain ⟨hextension, hstem⟩ := (hcut name extension).mpr
      (Path.splitDot_eq_iff.mpr ⟨hne, no_dot_of_isBundleExtension hbundle, hname⟩)
    rw [bundleFile?, hextension, hstem]
    exact if_pos hbundle

/-! ### Listings -/

/-- What a directory may list: names of files, each one once, with their sizes. -/
structure IsListing (listing : List (String × Nat)) : Prop where
  isName : ∀ e ∈ listing, Path.IsName e.1
  nodup : (listing.map Prod.fst).Nodup

theorem IsListing.perm {listing order : List (String × Nat)} (h : IsListing listing)
    (horder : order.Perm listing) : IsListing order :=
  ⟨fun e he => h.isName e (horder.subset he), (horder.map Prod.fst).nodup_iff.mpr h.nodup⟩

/-- A directory lists what lies one name below it. -/
theorem list_eq (d : Files) (l : Location) : d.list l = d.nodes.toList.filterMap fun e =>
    e.1.getLast?.bind fun name => if e.1.dropLast = l then some (name, e.2) else none := by
  rw [Disk.list]
  congr 1
  funext e
  obtain ⟨k, n⟩ := e
  dsimp only
  cases k.getLast? <;> rfl

/-- The files of a directory, each one once. -/
theorem isListing_files {d : Files} (htree : d.IsTree) (l : Location) :
    IsListing ((d.list l).filterMap sized?) := by
  have hentry : ∀ {x : Location × Node Content} {e : String × Node Content},
      (x.1.getLast?.bind fun name => if x.1.dropLast = l then some (name, x.2) else none) = some e →
        x = (l ++ [e.1], e.2) := by
    rintro ⟨k, n⟩ e h
    obtain ⟨name, hlast, h⟩ := Option.bind_eq_some_iff.mp h
    obtain ⟨front, rfl⟩ := List.getLast?_eq_some_iff.mp hlast
    obtain ⟨hfront, heq⟩ := Option.ite_none_right_eq_some.mp h
    cases heq
    rw [← hfront, List.dropLast_concat]
  have hsized : ∀ {e : String × Node Content} {e' : String × Nat}, sized? e = some e' →
      e'.1 = e.1 := by
    intro e e' h
    unfold sized? at h
    split at h
    · cases h
      rfl
    · cases h
  rw [list_eq]
  constructor
  · intro e he
    obtain ⟨e', he', hsame⟩ := List.mem_filterMap.mp he
    obtain ⟨x, hx, hkey⟩ := List.mem_filterMap.mp he'
    rw [hsized hsame]
    refine htree.isName l e'.1 ?_
    have hnode : d.node? (l ++ [e'.1]) = some e'.2 :=
      (Disk.node?_eq_some_iff (List.append_ne_nil_of_right_ne_nil l (List.cons_ne_nil _ _))).mpr
        (hentry hkey ▸ hx)
    rw [hnode]
    exact Option.some_ne_none e'.2
  · rw [List.Nodup, List.pairwise_map, List.pairwise_filterMap, List.pairwise_filterMap]
    refine Std.TreeMap.distinct_keys_toList.imp ?_
    intro x y hne e hx e' hy f hf f' hf' heq
    rw [hsized hf, hsized hf'] at heq
    refine hne (Std.compare_eq_iff_eq.mpr ?_)
    rw [hentry hx, hentry hy, heq]

/-- **A corpus is made from what its directory lists**, in the order of the names. -/
theorem exists_listing_of_scan {d : Files} {c : Corpus} (htree : d.IsTree)
    (h : scan d root = .ok c) : ∃ listing, IsListing listing ∧ c = ofListing root listing := by
  unfold scan at h
  split at h
  · cases h
  · next l _ =>
      split at h
      · cases h
        exact ⟨_, isListing_files htree l, rfl⟩
      · cases h

end Corpus

end CharacterArt
