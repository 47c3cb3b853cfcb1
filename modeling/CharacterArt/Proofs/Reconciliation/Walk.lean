import CharacterArt.Proofs.Disk.Names
import CharacterArt.Proofs.Disk.Trees
import CharacterArt.Proofs.Merge.Effects
import CharacterArt.Reconciliation.Outputs

/-!
# Pictures that a walk finds

A walk through the directory of outputs finds the pictures that stand below it.  It depends on where
files stand and not on what they hold, so a reconciliation, which only writes files that are there,
leaves the walk as it is.

## Main Definitions

* `Reconciliation.IsReached` — a place that can be walked to
* `Reconciliation.Standing` — every picture of a list stands in a place of its own

## Main Results

* `Reconciliation.mem_outputsIn` — what a walk finds
* `Reconciliation.outputsIn_congr` — what a walk depends on
* `Reconciliation.exists_reached` — the names that lead to a picture
* `Reconciliation.standing_outputsIn` — the pictures that a walk finds stand in places of their own
* `Reconciliation.Standing.evolves`, `Reconciliation.Standing.read_eq` — when pictures are written
-/

namespace CharacterArt.Reconciliation

variable {d d' : Files} {root : String} {l R : Location} {o : OutputFile} {outputs : List OutputFile}

/-! ### The walk -/

theorem outputFile?_eq_some_iff : outputFile? root l = some o ↔
    isPictureName ((l.getLast?).getD "") = true ∧ o.relative = String.intercalate "/" l ∧
      o.path = Path.join root (String.intercalate "/" l) ∧
      o.key = stemKey ((Path.stem ((l.getLast?).getD "")).getD "") := by
  unfold outputFile?
  dsimp only
  rw [Option.ite_none_right_eq_some, Option.some.injEq]
  refine and_congr_right fun _ => ?_
  cases o
  simp only [OutputFile.mk.injEq, eq_comm]

/-- A picture has a name. -/
theorem ne_nil_of_outputFile? (h : outputFile? root l = some o) : l ≠ [] := by
  rintro rfl
  exact absurd (outputFile?_eq_some_iff.mp h).1 (by decide)

/-- The picture that a node at a place is for a walk that starts at another place. -/
def pictureAt (root : String) (R k : Location) : Node Content → Option OutputFile
  | .file _ => if R.isPrefixOf k then outputFile? root (k.drop R.length) else none
  | .directory => none

theorem pictureAt_eq_some_iff {k : Location} {n : Node Content} : pictureAt root R k n = some o ↔
    ∃ l content, k = R ++ l ∧ n = .file content ∧ outputFile? root l = some o := by
  unfold pictureAt
  split
  · next content =>
      rw [Option.ite_none_right_eq_some, List.isPrefixOf_iff_prefix]
      constructor
      · rintro ⟨⟨l, rfl⟩, ho⟩
        rw [List.drop_left] at ho
        exact ⟨l, content, rfl, rfl, ho⟩
      · rintro ⟨l, _, rfl, -, ho⟩
        rw [List.drop_left]
        exact ⟨List.prefix_append R l, ho⟩
  · simp

/-- The pictures below a place are the files there whose names are those of pictures. -/
theorem getElem?_pictures {k : Location} : (d.nodes.filterMap (pictureAt root R))[k]? = some o ↔
    ∃ l, k = R ++ l ∧ outputFile? root l = some o ∧
      ∃ content, d.node? (R ++ l) = some (.file content) := by
  have hnode : ∀ {l : Location} {content : Content}, outputFile? root l = some o →
      (d.node? (R ++ l) = some (.file content) ↔ d.nodes[R ++ l]? = some (.file content)) := by
    intro l content ho
    have hne : R ++ l ≠ [] := List.append_ne_nil_of_right_ne_nil _ (ne_nil_of_outputFile? ho)
    rw [Disk.node?_eq_some_iff hne, Std.TreeMap.mem_toList_iff_getElem?_eq_some]
  rw [Std.TreeMap.getElem?_filterMap', Option.bind_eq_some_iff]
  simp only [pictureAt_eq_some_iff]
  constructor
  · rintro ⟨n, hk, l, content, rfl, rfl, ho⟩
    exact ⟨l, rfl, ho, content, (hnode ho).mpr hk⟩
  · rintro ⟨l, rfl, ho, content, hfile⟩
    exact ⟨_, (hnode ho).mp hfile, l, content, rfl, rfl, ho⟩

/-- A walk goes through the pictures in the order of their places. -/
theorem outputsIn_eq (h : d.resolve root = .ok R) :
    outputsIn d root = ((d.nodes.filterMap (pictureAt root R)).toList).map Prod.snd := by
  rw [Std.TreeMap.toList_filterMap, List.map_filterMap, outputsIn, h]
  dsimp only
  rw [Disk.filesBelow, List.filterMap_filterMap]
  refine List.filterMap_congr ?_
  rintro ⟨k, n⟩ -
  rw [Option.map_map]
  cases n with
  | directory => rfl
  | file content =>
      dsimp only [pictureAt]
      split
      · exact Option.map_id'.symm
      · rfl

/-- **A walk finds the pictures that stand below a directory.** -/
theorem mem_outputsIn : o ∈ outputsIn d root ↔ ∃ R l, d.resolve root = .ok R ∧
    outputFile? root l = some o ∧ ∃ content, d.node? (R ++ l) = some (.file content) := by
  cases hresolve : d.resolve root with
  | error f => simp [outputsIn, hresolve]
  | ok R =>
      rw [outputsIn_eq hresolve]
      simp only [List.mem_map, Prod.exists, exists_eq_right,
        Std.TreeMap.mem_toList_iff_getElem?_eq_some, getElem?_pictures, Except.ok.injEq]
      constructor
      · rintro ⟨k, l, -, ho⟩
        exact ⟨R, l, rfl, ho⟩
      · rintro ⟨_, l, rfl, ho⟩
        exact ⟨_, l, rfl, ho⟩

/-- **A walk depends on where files stand alone.** -/
theorem outputsIn_congr (hroot : d'.resolve root = d.resolve root)
    (hfiles : ∀ R, d.resolve root = .ok R → ∀ l o, outputFile? root l = some o →
      ((∃ content, d'.node? (R ++ l) = some (.file content)) ↔
        ∃ content, d.node? (R ++ l) = some (.file content))) :
    outputsIn d' root = outputsIn d root := by
  cases hresolve : d.resolve root with
  | error f =>
      rw [outputsIn, hroot, hresolve, outputsIn, hresolve]
  | ok R =>
      rw [outputsIn_eq hresolve, outputsIn_eq (hroot.trans hresolve)]
      refine congrArg _ (Std.TreeMap.Equiv.toList_eq (Std.TreeMap.Equiv.of_forall_constGet?_eq ?_))
      refine fun k => Option.ext fun o => ?_
      rw [getElem?_pictures, getElem?_pictures]
      refine exists_congr fun l => and_congr_right fun _ => and_congr_right fun ho => ?_
      exact hfiles R hresolve l o ho

/-! ### Pictures in their places -/

/-- Names lead from one place through directories. -/
structure IsReached (d : Files) (R l : Location) : Prop where
  isName : ∀ name ∈ l, Path.IsName name
  directory : ∀ front back, l = front ++ back → back ≠ [] → d.node? (R ++ front) = some .directory

/-- In a tree everything can be walked to. -/
theorem isReached_of_isTree (h : d.IsTree) (hnode : d.node? (R ++ l) ≠ none) : IsReached d R l where
  isName name hname := h.forall_names hnode name (List.mem_append_right R hname)
  directory := by
    rintro front back rfl hback
    rw [← List.append_assoc] at hnode
    exact h.directory_of_prefix hback hnode

/-- **In a tree a walk finds a picture under the names that lead to it.** -/
theorem exists_reached (h : d.IsTree) (ho : o ∈ outputsIn d root) : ∃ l,
    outputFile? root l = some o ∧ d.resolve root = .ok (Path.place d.cwd root) ∧
      IsReached d (Path.place d.cwd root) l ∧
      Path.place d.cwd o.path = Path.place d.cwd root ++ l ∧
      ∃ content, d.node? (Path.place d.cwd root ++ l) = some (.file content) := by
  obtain ⟨R, l, hroot, ho, content, hfile⟩ := mem_outputsIn.mp ho
  obtain rfl := (Disk.resolve_eq_ok_iff.mp hroot).2.2
  have hreached : IsReached d (Path.place d.cwd root) l :=
    isReached_of_isTree h (by rw [hfile]; exact nofun)
  refine ⟨l, ho, hroot, hreached, ?_, content, hfile⟩
  rw [(outputFile?_eq_some_iff.mp ho).2.2.1,
    Path.place_join_names (ne_nil_of_outputFile? ho) hreached.isName]

/-- Every picture of a list stands in a place of its own, under a path of its own. -/
structure Standing (outputs : List OutputFile) (d : Files) : Prop where
  way : ∀ o ∈ outputs, ∀ m, Path.Passes d.cwd o.path m → d.node? m = some .directory
  file : ∀ o ∈ outputs, ∃ content, d.node? (Path.place d.cwd o.path) = some (.file content)
  eq_of_place : ∀ o ∈ outputs, ∀ p ∈ outputs,
    Path.place d.cwd o.path = Path.place d.cwd p.path → o = p
  eq_of_relative : ∀ o ∈ outputs, ∀ p ∈ outputs, o.relative = p.relative → o = p

/-- **In a tree the pictures that a walk finds stand in places of their own.** -/
theorem standing_outputsIn (h : d.IsTree) : Standing (outputsIn d root) d := by
  refine ⟨?_, ?_, ?_, ?_⟩
  · intro o ho m hm
    obtain ⟨l, hol, hroot, hreached, -⟩ := exists_reached h ho
    rw [(outputFile?_eq_some_iff.mp hol).2.2.1,
      Path.passes_join_names (ne_nil_of_outputFile? hol) hreached.isName] at hm
    rcases hm with hm | ⟨front, name, back, hl, rfl⟩
    · exact (Disk.resolve_eq_ok_iff.mp hroot).2.1 m hm
    · exact hreached.directory front (name :: back) hl (List.cons_ne_nil name back)
  · intro o ho
    obtain ⟨l, -, -, -, hl, hfile⟩ := exists_reached h ho
    rwa [hl]
  · intro o ho p hp heq
    obtain ⟨l, hol, -, -, hl, -⟩ := exists_reached h ho
    obtain ⟨k, hpk, -, -, hk, -⟩ := exists_reached h hp
    rw [hl, hk, List.append_cancel_left_eq] at heq
    rw [heq, hpk] at hol
    exact (Option.some.inj hol).symm
  · intro o ho p hp heq
    obtain ⟨l, hol, -, hnames, -⟩ := exists_reached h ho
    obtain ⟨k, hpk, -, hnames', -⟩ := exists_reached h hp
    rw [(outputFile?_eq_some_iff.mp hol).2.1, (outputFile?_eq_some_iff.mp hpk).2.1] at heq
    have hlk := Path.names_inj (ne_nil_of_outputFile? hol) (ne_nil_of_outputFile? hpk)
      hnames.isName hnames'.isName heq
    rw [hlk, hpk] at hol
    exact (Option.some.inj hol).symm

namespace Standing

variable {written : String → Prop}

/-- Pictures stand in no scratch directory. -/
theorem avoids (h : Standing outputs d) (hlacks : d.Lacks InScratch) (ho : o ∈ outputs) :
    AvoidsScratch d.cwd o.path := by
  rintro m (hm | rfl) hscratch
  · have hway := h.way o ho m hm
    rw [hlacks m hscratch] at hway
    cases hway
  · obtain ⟨content, hfile⟩ := h.file o ho
    rw [hlacks _ hscratch] at hfile
    cases hfile

/-- **Pictures are still in their places when some of them were written.** -/
theorem evolves (h : Standing outputs d) (hd : d.Evolves (producing d.cwd written) d') :
    Standing outputs d' := by
  refine ⟨?_, ?_, ?_, h.eq_of_relative⟩
  · intro o ho m hm
    rw [hd.cwd] at hm
    exact hd.directory id (h.way o ho m hm)
  · intro o ho
    obtain ⟨content, hfile⟩ := h.file o ho
    rw [hd.cwd]
    exact hd.file id hfile
  · rw [hd.cwd]
    exact h.eq_of_place

/-- **A picture that was not written is read as before.** -/
theorem read_eq (h : Standing outputs d) (hd : d.Evolves (producing d.cwd written) d')
    (ho : o ∈ outputs)
    (hnot : ∀ path, written path → Path.place d.cwd path ≠ Path.place d.cwd o.path) :
    d'.read o.path = d.read o.path := by
  refine Disk.read_congr hd.cwd fun m hm => ?_
  rcases hm with hm | rfl
  · rw [h.way o ho m hm]
    exact hd.directory id (h.way o ho m hm)
  · obtain ⟨content, hfile⟩ := h.file o ho
    refine hd.node?_eq id ?_ (by rw [hfile]; exact nofun)
    rintro ⟨path, hpath, heq⟩
    exact hnot path hpath heq.symm

end Standing

end CharacterArt.Reconciliation
