import CharacterArt.Bundle.Corpus
import CharacterArt.Proofs.Insertions
import CharacterArt.Proofs.Path
import Mathlib.Data.List.Nodup

/-!
# Corpora by name

The bundles of a directory are kept by name.  This module settles what that means for lookups: each
bundle stands under its own name, which is that of its file, the list of bundles holds what lookups
find, and it is in the order of the names.

## Main Definitions

* `Corpus.Named` — every bundle stands under its own name
* `Corpus.diskWith`, `Corpus.scanned` — a disk with a directory of bundles and its corpus, for
  examples

## Main Results

* `Corpus.named_of_scan` — so it is in the corpus of a directory
* `Corpus.stem_of_scan` — a bundle of a directory is called by its file
* `Corpus.mem_bundles`, `Corpus.pairwise_names`, `Corpus.nodup_names` — the bundles as a list
-/

namespace CharacterArt.Corpus

/-- Every bundle stands under its own name. -/
def Named (c : Corpus) : Prop :=
  ∀ name b, c.get? name = some b → b.name = name

theorem get?_empty (root name : String) : get? ⟨root, ∅⟩ name = none := by
  simp [get?]

theorem named_empty (root : String) : Named ⟨root, ∅⟩ := by
  intro name b h
  rw [get?_empty] at h
  cases h

/-- Bundles that are put in one after another are found under their own names. -/
theorem get?_foldl_insert {root name : String} {b : BundleFile} (bs : List BundleFile)
    (files : Std.TreeMap String BundleFile)
    (h : get? ⟨root, bs.foldl (fun files b => files.insert b.name b) files⟩ name = some b) :
    (b ∈ bs ∧ b.name = name) ∨ get? ⟨root, files⟩ name = some b := by
  have hlast := getElem?_foldl_insert_last BundleFile.name id bs files name
  rw [Option.map_id, id] at hlast
  cases hfind : bs.reverse.find? fun b => b.name == name with
  | none =>
      rw [hfind] at hlast
      exact .inr (hlast.symm.trans h)
  | some last =>
      rw [hfind] at hlast
      cases hlast.symm.trans h
      exact .inl (mem_of_find?_reverse hfind)

/-- A bundle of a directory is one of its files, and it stands under its own name. -/
theorem exists_file_of_get? {root name : String} {listing : List (String × Nat)} {b : BundleFile}
    (h : (ofListing root listing).get? name = some b) :
    b.name = name ∧ ∃ file size, bundleFile? root file size = some b := by
  rcases get?_foldl_insert _ ∅ h with ⟨hmem, hname⟩ | hempty
  · obtain ⟨⟨file, size⟩, -, hfile⟩ := List.mem_filterMap.mp hmem
    exact ⟨hname, file, size, hfile⟩
  · rw [get?_empty] at hempty
    cases hempty

theorem exists_ofListing_of_scan {d : Files} {root : String} {c : Corpus}
    (h : scan d root = .ok c) : ∃ listing, c = ofListing root listing := by
  unfold scan at h
  split at h
  · cases h
  · split at h
    · cases h
      exact ⟨_, rfl⟩
    · cases h

/-- **The corpus of a directory holds every bundle under its own name.** -/
theorem named_of_scan {d : Files} {root : String} {c : Corpus} (h : scan d root = .ok c) :
    c.Named := by
  obtain ⟨listing, rfl⟩ := exists_ofListing_of_scan h
  exact fun name b hfound => (exists_file_of_get? hfound).1

/-- The name of a bundle is that of its file without the extension. -/
theorem stem_of_bundleFile? {root file : String} {size : Nat} {b : BundleFile}
    (h : bundleFile? root file size = some b) : Path.stem b.path = some b.name := by
  unfold bundleFile? at h
  split at h
  · next extension stem _ hstem =>
      split at h
      · cases h
        exact Path.stem_join hstem
      · cases h
  · cases h

/-- **A bundle of a directory is called by the name of its file.** -/
theorem stem_of_scan {d : Files} {root : String} {c : Corpus} (h : scan d root = .ok c)
    {name : String} {b : BundleFile} (hb : c.get? name = some b) : Path.stem b.path = some b.name := by
  obtain ⟨listing, rfl⟩ := exists_ofListing_of_scan h
  obtain ⟨-, file, size, hfile⟩ := exists_file_of_get? hb
  exact stem_of_bundleFile? hfile

/-! ### The bundles as a list -/

/-- The list of bundles holds what lookups find. -/
theorem mem_bundles {c : Corpus} (h : c.Named) {b : BundleFile} :
    b ∈ c.bundles ↔ c.get? b.name = some b := by
  simp only [bundles, get?, List.mem_map, Prod.exists, exists_eq_right,
    Std.TreeMap.mem_toList_iff_getElem?_eq_some]
  constructor
  · rintro ⟨name, hfound⟩
    rw [h name b hfound]
    exact hfound
  · exact fun hfound => ⟨b.name, hfound⟩

/-- The list of bundles is in the order of their names. -/
theorem pairwise_names {c : Corpus} (h : c.Named) :
    (c.bundles.map BundleFile.name).Pairwise (· < ·) := by
  have hkeys : c.bundles.map BundleFile.name = c.files.toList.map Prod.fst := by
    rw [bundles, List.map_map]
    refine List.map_congr_left ?_
    intro ⟨name, b⟩ hmem
    exact h name b (Std.TreeMap.mem_toList_iff_getElem?_eq_some.mp hmem)
  rw [hkeys, List.pairwise_map]
  refine Std.TreeMap.ordered_keys_toList.imp ?_
  intro a b hlt
  exact compareOfLessAndEq_eq_lt.mp hlt

/-- No two bundles have one name. -/
theorem nodup_names {c : Corpus} (h : c.Named) : (c.bundles.map BundleFile.name).Nodup := by
  refine (pairwise_names h).imp ?_
  rintro a b hlt rfl
  exact String.lt_irrefl a hlt

/-- The names and sizes of the bundles stand in the order of the names. -/
theorem map_bundles_eq_toList {c : Corpus} (h : c.Named) :
    c.bundles.map (fun b => (b.name, b.size)) = (c.files.map fun _ b => b.size).toList := by
  rw [Std.TreeMap.toList_map, bundles, List.map_map]
  refine List.map_congr_left fun ⟨name, b⟩ hmem => ?_
  have hname := h name b (Std.TreeMap.mem_toList_iff_getElem?_eq_some.mp hmem)
  simp [hname]

/-! ### Directories of bundles -/

/-- A disk with nothing but a directory of bundles with given objects.  Objects without a table
leave an empty file. -/
def diskWith (directory : String) (bundles : List (String × List Bundle.Packed)) : Files where
  nodes := Std.TreeMap.ofList (([directory], Node.directory) :: bundles.map fun (name, objects) =>
    ([directory, name], Node.file (Content.bytes (match Bundle.encode objects with
      | .ok bytes => bytes
      | .error _ => []))))

/-- The corpus of a directory, without bundles if there is no such directory. -/
def scanned (d : Files) (root : String) : Corpus :=
  match scan d root with
  | .ok c => c
  | .error _ => ⟨root, ∅⟩

theorem scan_eq_scanned {d : Files} {root : String} (hok : (scan d root).isOk = true) :
    scan d root = .ok (scanned d root) := by
  unfold scanned
  cases hscan : scan d root with
  | ok c => rfl
  | error e =>
      rw [hscan] at hok
      cases hok

end CharacterArt.Corpus
