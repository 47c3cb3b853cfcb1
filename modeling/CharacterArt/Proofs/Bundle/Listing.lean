import CharacterArt.Proofs.Bundle.Corpus
import CharacterArt.Proofs.Disk.Trees

/-!
# Bundles in a directory

The bundles of a directory are the files in it whose names have the extension of bundles.  Other
files, and files elsewhere, are of no concern: a directory whose bundles are left as they are has the
same corpus, and its bundles are read as before.

## Main Definitions

* `Corpus.bundleAt`, `Corpus.bundlesIn` — the bundle that a node is, and those of a directory

## Main Results

* `Corpus.scan_eq_ok_iff` — the corpus of a directory
* `Corpus.exists_node_of_scan` — a bundle is a file in the directory
* `Corpus.scan_congr`, `Corpus.read_congr_of_scan` — directories with the same bundles
-/

namespace CharacterArt.Corpus

variable {d e : Files} {root : String} {l : Location} {b : BundleFile} {c : Corpus}

/-- The bundle that a node in a directory is. -/
def bundleAt (root : String) (l k : Location) (n : Node Content) : Option BundleFile :=
  match k.getLast?, n with
  | some name, .file content =>
    if k.dropLast = l then bundleFile? root name content.toBytes.length else none
  | _, _ => none

theorem bundleAt_eq_some_iff {k : Location} {n : Node Content} : bundleAt root l k n = some b ↔
    ∃ name content, k = l ++ [name] ∧ n = .file content ∧
      bundleFile? root name content.toBytes.length = some b := by
  unfold bundleAt
  split
  · next name content hlast =>
      obtain ⟨front, rfl⟩ := List.getLast?_eq_some_iff.mp hlast
      rw [Option.ite_none_right_eq_some, List.dropLast_concat]
      constructor
      · rintro ⟨rfl, hb⟩
        exact ⟨name, content, rfl, rfl, hb⟩
      · rintro ⟨other, _, heq, hn, hb⟩
        obtain ⟨rfl, hname⟩ := List.append_inj' heq rfl
        cases hname
        cases hn
        exact ⟨rfl, hb⟩
  · next hno =>
      refine ⟨nofun, ?_⟩
      rintro ⟨name, content, rfl, rfl, -⟩
      exact absurd rfl (hno name content List.getLast?_concat)

/-- The bundles of a directory stand in it under their names. -/
theorem getElem?_bundles {k : Location} : (d.nodes.filterMap (bundleAt root l))[k]? = some b ↔
    ∃ name content, k = l ++ [name] ∧ d.node? (l ++ [name]) = some (.file content) ∧
      bundleFile? root name content.toBytes.length = some b := by
  have hnode : ∀ {name : String} {content : Content},
      d.node? (l ++ [name]) = some (.file content) ↔ d.nodes[l ++ [name]]? = some (.file content) := by
    intro name content
    have hne : l ++ [name] ≠ [] :=
      List.append_ne_nil_of_right_ne_nil _ (List.cons_ne_nil name [])
    rw [Disk.node?_eq_some_iff hne, Std.TreeMap.mem_toList_iff_getElem?_eq_some]
  rw [Std.TreeMap.getElem?_filterMap', Option.bind_eq_some_iff]
  simp only [bundleAt_eq_some_iff]
  constructor
  · rintro ⟨n, hk, name, content, rfl, rfl, hb⟩
    exact ⟨name, content, rfl, hnode.mpr hk, hb⟩
  · rintro ⟨name, content, rfl, hfile, hb⟩
    exact ⟨_, hnode.mp hfile, name, content, rfl, rfl, hb⟩

/-- The bundles of a directory in the order of their files. -/
def bundlesIn (d : Files) (root : String) (l : Location) : List BundleFile :=
  (d.nodes.filterMap (bundleAt root l)).toList.map Prod.snd

/-- The corpus of bundles that are put in one after another. -/
def ofBundles (root : String) (bs : List BundleFile) : Corpus where
  root := root
  files := bs.foldl (fun files b => files.insert b.name b) ∅

/-- A file of a directory with its size. -/
def sized? (e : String × Node Content) : Option (String × Nat) :=
  match e.2 with
  | .file content => some (e.1, content.toBytes.length)
  | .directory => none

/-- **The corpus of a directory is put together from the bundles in it.** -/
theorem scan_eq_ok_iff : scan d root = .ok c ↔ ∃ l, d.resolve root = .ok l ∧
    d.node? l = some .directory ∧ c = ofBundles root (bundlesIn d root l) := by
  have hcorpus : ∀ l, ofListing root ((d.list l).filterMap sized?) =
      ofBundles root (bundlesIn d root l) := by
    intro l
    refine congrArg (ofBundles root) ?_
    rw [bundlesIn, Std.TreeMap.toList_filterMap, List.map_filterMap, Disk.list,
      List.filterMap_filterMap, List.filterMap_filterMap]
    refine List.filterMap_congr ?_
    rintro ⟨k, n⟩ -
    rw [Option.map_map]
    refine Eq.trans ?_ Option.map_id'.symm
    dsimp only [bundleAt]
    cases k.getLast? with
    | none => rfl
    | some name =>
        dsimp only
        by_cases hk : k.dropLast = l
        · rw [if_pos hk]
          cases n with
          | directory => rfl
          | file content => exact (if_pos hk).symm
        · rw [if_neg hk]
          cases n with
          | directory => rfl
          | file content => exact (if_neg hk).symm
  unfold scan
  cases hroot : d.resolve root with
  | error f => simp
  | ok l =>
      dsimp only
      split
      · next hnode =>
          constructor
          · intro h
            cases h
            exact ⟨l, rfl, hnode, hcorpus l⟩
          · rintro ⟨_, heq, -, rfl⟩
            cases heq
            exact congrArg Except.ok (hcorpus l)
      · next hnode =>
          constructor
          · intro h
            cases h
          · rintro ⟨_, heq, hdirectory, -⟩
            cases heq
            exact absurd hdirectory hnode

/-- **A bundle is a file in the directory.** -/
theorem exists_node_of_scan (h : scan d root = .ok c) (hb : b ∈ c.bundles) :
    ∃ l name content, d.resolve root = .ok l ∧ d.node? (l ++ [name]) = some (.file content) ∧
      bundleFile? root name content.toBytes.length = some b := by
  have hfound := (mem_bundles (named_of_scan h)).mp hb
  obtain ⟨l, hroot, -, rfl⟩ := scan_eq_ok_iff.mp h
  rcases get?_foldl_insert _ ∅ hfound with ⟨hmem, -⟩ | hempty
  · obtain ⟨⟨k, found⟩, hk, rfl⟩ := List.mem_map.mp hmem
    rw [Std.TreeMap.mem_toList_iff_getElem?_eq_some, getElem?_bundles] at hk
    obtain ⟨name, content, -, hfile, hb⟩ := hk
    exact ⟨l, name, content, hroot, hfile, hb⟩
  · rw [get?_empty] at hempty
    cases hempty

/-- The name of a bundle names it, however many bytes it has. -/
theorem bundleFile?_isSome {name : String} {size size' : Nat}
    (h : bundleFile? root name size = some b) : ∃ b', bundleFile? root name size' = some b' := by
  unfold bundleFile? at h ⊢
  split at h
  · rw [Option.ite_none_right_eq_some] at h
    exact ⟨_, if_pos h.1⟩
  · cases h

/-- **A directory whose bundles are left as they are has the same corpus.** -/
theorem scan_congr (h : scan d root = .ok c) (hroot : e.resolve root = d.resolve root)
    (hdirectory : ∀ m, d.node? m = some .directory → e.node? m = some .directory)
    (hbundles : ∀ l name content, d.resolve root = .ok l →
      (∃ b, bundleFile? root name 0 = some b) →
      (e.node? (l ++ [name]) = some (.file content) ↔ d.node? (l ++ [name]) = some (.file content))) :
    scan e root = scan d root := by
  rw [h]
  obtain ⟨l, hl, hnode, rfl⟩ := scan_eq_ok_iff.mp h
  refine scan_eq_ok_iff.mpr ⟨l, hroot.trans hl, hdirectory l hnode, congrArg (ofBundles root) ?_⟩
  refine congrArg _ (Std.TreeMap.Equiv.toList_eq (Std.TreeMap.Equiv.of_forall_constGet?_eq ?_))
  refine fun k => Option.ext fun b => ?_
  rw [getElem?_bundles, getElem?_bundles]
  refine exists_congr fun name => exists_congr fun content => and_congr_right fun _ => ?_
  refine and_congr_left fun hb => ?_
  exact (hbundles l name content hl (bundleFile?_isSome hb)).symm

/-- **A bundle that is left as it is is read as before.** -/
theorem read_congr_of_scan (h : scan d root = .ok c) (hb : b ∈ c.bundles) (htree : d.IsTree)
    (hcwd : e.cwd = d.cwd) {opened : Files} (hcwd' : opened.cwd = d.cwd)
    (hdirectory : ∀ m, d.node? m = some .directory →
      opened.node? m = some .directory ∧ e.node? m = some .directory)
    (hbundles : ∀ l name content, d.resolve root = .ok l →
      (∃ b, bundleFile? root name 0 = some b) → d.node? (l ++ [name]) = some (.file content) →
      e.node? (l ++ [name]) = opened.node? (l ++ [name])) :
    e.read b.path = opened.read b.path := by
  obtain ⟨l, name, content, hroot, hfile, hname⟩ := exists_node_of_scan h hb
  have hisname : Path.IsName name := htree.isName l name (by rw [hfile]; exact nofun)
  obtain ⟨-, hway, rfl⟩ := Disk.resolve_eq_ok_iff.mp hroot
  have hpath : b.path = Path.join root name := by
    unfold bundleFile? at hname
    split at hname
    · rw [Option.ite_none_right_eq_some, Option.some.injEq] at hname
      rw [← hname.2]
    · cases hname
  rw [hpath]
  refine Disk.read_congr (hcwd.trans hcwd'.symm) fun m hm => ?_
  rw [hcwd', hisname.passes_join, hisname.place_join] at hm
  rcases hm with (hm | rfl) | rfl
  · obtain ⟨ho, he⟩ := hdirectory m (hway m hm)
    rw [ho, he]
  · obtain ⟨ho, he⟩ := hdirectory _ (htree.above _ name (by rw [hfile]; exact nofun))
    rw [ho, he]
  · exact hbundles _ name content hroot (bundleFile?_isSome hname) hfile

end CharacterArt.Corpus
