import CharacterArt.Merge.Task
import CharacterArt.Proofs.Disk.Directories
import CharacterArt.Proofs.Disk.Names
import CharacterArt.Proofs.Disk.Trees

/-!
# Where outputs lie

An output lies two steps below the directory of all outputs: in the directory of its owner and under
the name of its object, if the two have plain names.  So different outputs lie in different places,
and none lies on the way to another one.

## Main Definitions

* `MergeTask.IsNamed` — directories and names that are single steps of paths

## Main Results

* `MergeTask.target_eq`, `MergeTask.place_target`, `MergeTask.passes_target` — where an output lies
* `MergeTask.outputPath_eq_of_place` — different outputs lie in different places
* `MergeTask.passes_of_passes_target` — no output lies on the way to another one
* `MergeTask.node?_of_makeDirs` — making the directory of an output
* `MergeTask.exists_place_target`, `MergeTask.directory_of_makeAbove` — outputs of any name
* `MergeTask.directory_of_passes_target` — when the way to an output is there
-/

namespace CharacterArt

namespace MergeTask

variable {o : MergeOptions} {t u : MergeTask} {cwd m : Location}

/-- The names of a task are single steps of paths. -/
structure IsNamed (t : MergeTask) : Prop where
  directory : Path.IsName t.directory
  name : Path.IsName t.name

/-- The names that lead to an output from the directory of all outputs. -/
def names (t : MergeTask) : List String :=
  [t.directory, t.name ++ ".png"]

theorem outputPath_eq (t : MergeTask) : t.outputPath = String.intercalate "/" t.names := by
  rw [← String.toList_inj, outputPath, names, String.toList_intercalate]
  simp [List.intercalate]

theorem names_ne_nil (t : MergeTask) : t.names ≠ [] :=
  List.cons_ne_nil _ _

theorem IsNamed.forall_names (h : t.IsNamed) : ∀ name ∈ t.names, Path.IsName name := by
  intro name hname
  rcases List.mem_pair.mp hname with rfl | rfl
  · exact h.directory
  · exact h.name.withExtension

/-- The path of an output is its path below the directory of all outputs, put below that. -/
theorem target_eq (h : t.IsNamed) (o : MergeOptions) :
    t.target o = Path.join o.root t.outputPath := by
  rw [target, outputPath,
    Path.join_join_name h.directory _ (Path.isAbsolute_of_no_slash h.name.withExtension.no_slash)]
  simp only [String.append_assoc]

/-- **Where an output lies.** -/
theorem place_target (h : t.IsNamed) (o : MergeOptions) (cwd : Location) :
    Path.place cwd (t.target o) = Path.place cwd o.root ++ t.names := by
  rw [target_eq h, outputPath_eq, Path.place_join_names t.names_ne_nil h.forall_names]

/-- **The way to an output.** -/
theorem passes_target (h : t.IsNamed) : Path.Passes cwd (t.target o) m ↔
    Path.Passes cwd o.root m ∨ m = Path.place cwd o.root ∨
      m = Path.place cwd o.root ++ [t.directory] := by
  rw [target_eq h, outputPath_eq, Path.passes_join_names t.names_ne_nil h.forall_names]
  refine or_congr_right ⟨?_, ?_⟩
  · rintro ⟨front, name, back, hnames, rfl⟩
    cases front with
    | nil => exact .inl (List.append_nil _)
    | cons first front =>
        rw [names, List.cons_append, List.cons.injEq] at hnames
        obtain ⟨rfl, hnames⟩ := hnames
        cases front with
        | nil => exact .inr rfl
        | cons second front =>
            have hlength := congrArg List.length hnames
            simp at hlength
  · rintro (rfl | rfl)
    · exact ⟨[], t.directory, [t.name ++ ".png"], rfl, (List.append_nil _).symm⟩
    · exact ⟨[t.directory], t.name ++ ".png", [], rfl, rfl⟩

/-- **Different outputs lie in different places.** -/
theorem outputPath_eq_of_place (ht : t.IsNamed) (hu : u.IsNamed)
    (h : Path.place cwd (t.target o) = Path.place cwd (u.target o)) :
    t.outputPath = u.outputPath := by
  rw [place_target ht, place_target hu, List.append_cancel_left_eq] at h
  rw [outputPath_eq, outputPath_eq, h]

/-- An output lies on the way to another one only if the way to the directory of all outputs leads
through it. -/
theorem passes_of_passes_target (ht : t.IsNamed) (hu : u.IsNamed)
    (h : Path.Passes cwd (u.target o) (Path.place cwd (t.target o))) :
    Path.Passes cwd o.root (Path.place cwd (t.target o)) := by
  rcases (passes_target hu).mp h with h | h | h
  · exact h
  · have hlength := congrArg List.length h
    rw [place_target ht, List.length_append] at hlength
    simp [names] at hlength
  · have hlength := congrArg List.length h
    rw [place_target ht, List.length_append, List.length_append] at hlength
    simp [names] at hlength

/-! ### The directory of an output -/

section Above

variable {d e : Files} {l : Location}

/-- The directory of an output is that of its owner. -/
theorem parent_target (ht : t.IsNamed) (o : MergeOptions) :
    (Path.parent (t.target o)).getD "" = Path.join o.root t.directory := by
  rw [target, Path.parent_join_join ht.directory ht.name.withExtension]
  rfl

/-- The way to an output is the way to the directory of its owner, and that directory. -/
theorem passes_target_iff (ht : t.IsNamed) (o : MergeOptions) : Path.Passes cwd (t.target o) l ↔
    Path.Passes cwd (Path.join o.root t.directory) l ∨
      l = Path.place cwd (Path.join o.root t.directory) :=
  ht.name.withExtension.passes_join _ cwd l

/-- **Making the directory of an output** leaves directories on the way to the output, and nothing
else has changed. -/
theorem node?_of_makeDirs (ht : t.IsNamed)
    (hmade : Files.makeDirs d (Path.join o.root t.directory) = .ok e) : e.cwd = d.cwd ∧
      (∀ l, Path.Passes d.cwd (t.target o) l → e.node? l = some .directory) ∧
      ∀ l, ¬ Path.Passes d.cwd (t.target o) l → e.node? l = d.node? l := by
  have hmade' := Files.makeDirs_eq_ok_iff.mp hmade
  have hevolves : d.Evolves { ways := Path.Passes d.cwd (t.target o) } e :=
    Disk.evolves_makeDirs hmade' fun l hl => .inl ((passes_target_iff ht o).mpr hl)
  obtain ⟨⟨-, hway⟩, hplace⟩ := Disk.find?_eq_some_iff.mp
    (Disk.find?_of_makeDirs hmade' (ht.directory.isEmpty_join o.root))
  rw [hevolves.cwd] at hway hplace
  refine ⟨hevolves.cwd, fun l hl => ?_, fun l hl => ?_⟩
  · rcases (passes_target_iff ht o).mp hl with hl | rfl
    · exact hway l hl
    · exact hplace
  · cases hevolves.change l with
    | keep hkeep => exact hkeep
    | scratch hscratch => exact absurd hscratch id
    | make hpasses => exact absurd hpasses hl
    | write hfile => exact absurd hfile id

end Above

/-! ### Outputs of any name -/

section Any

variable {d e : Files} {l : Location}

/-- Whatever the names are, the path of an output ends with a name. -/
theorem exists_segments_target (t : MergeTask) (o : MergeOptions) : ∃ front name,
    Path.segments (t.target o).toList = front ++ [name.toList] ∧ Path.IsName name := by
  obtain ⟨front, last, -, hslash, hparts⟩ := Path.exists_segments_withExtension t.name
  have hname := Path.isName_withExtension hslash
  rcases Path.segments_join (Path.join o.root t.directory) (t.name ++ ".png") with heq | ⟨above, heq⟩
  · exact ⟨front, _, by rw [target, heq, hparts], hname⟩
  · exact ⟨above ++ front, _, by rw [target, heq, hparts, List.append_assoc], hname⟩

/-- An output lies one name below a place on the way to it. -/
theorem exists_place_target (t : MergeTask) (o : MergeOptions) (cwd : Location) : ∃ l name,
    Path.place cwd (t.target o) = l ++ [name] ∧ Path.IsName name ∧ Path.Passes cwd (t.target o) l := by
  obtain ⟨front, name, hparts, hname⟩ := t.exists_segments_target o
  refine ⟨front.foldl Path.follow (Path.start cwd (t.target o)), name, ?_, hname,
    front, name.toList, [], hparts, rfl⟩
  rw [Path.place, hparts, List.foldl_append, List.foldl_cons, List.foldl_nil, hname.follow]

/-- **Making the directory above an output** leaves directories on the way to it. -/
theorem directory_of_makeAbove (hcwd : d.node? d.cwd = some .directory)
    (hmade : Files.makeDirs d ((Path.parent (t.target o)).getD "") = .ok e)
    (hl : Path.Passes d.cwd (t.target o) l) : e.node? l = some .directory := by
  obtain ⟨front, name, hparts, hname⟩ := t.exists_segments_target o
  rw [Path.passes_iff_of_step hparts hname.isIdle_eq] at hl
  exact Disk.directory_of_makeDirs (Files.makeDirs_eq_ok_iff.mp hmade) hcwd hl

end Any

/-! ### Outputs that are found -/

section Found

variable {d : Files} {l : Location} (htree : d.IsTree) (ht : t.IsNamed)
  (hup : ∀ l, Path.LeadsUp d.cwd o.root l → d.node? l = some .directory)

include htree ht hup

/-- **The way to an output is there if something is in its place**, provided that the path of the
directory of all outputs leads up only from directories that are there. -/
theorem directory_of_passes_target (hthere : d.node? (Path.place d.cwd (t.target o)) ≠ none)
    (hl : Path.Passes d.cwd (t.target o) l) : d.node? l = some .directory := by
  rw [place_target ht] at hthere
  rcases (passes_target ht).mp hl with hl | rfl | rfl
  · rcases Path.isPrefix_of_passes hl with ⟨back, hback⟩ | ⟨m, hm, hbelow⟩
    · rw [← hback, List.append_assoc] at hthere
      exact htree.directory_of_prefix (List.append_ne_nil_of_right_ne_nil back t.names_ne_nil)
        hthere
    · exact htree.directory_of_isPrefix hbelow (hup m hm)
  · exact htree.directory_of_prefix t.names_ne_nil hthere
  · refine htree.directory_of_prefix (List.cons_ne_nil (t.name ++ ".png") []) ?_
    rwa [List.append_assoc]

/-- The place of an output lies on the way to the directory of all outputs only if it is a directory. -/
theorem directory_of_passes_root (hl : Path.Passes d.cwd o.root (Path.place d.cwd (t.target o))) :
    d.node? (Path.place d.cwd (t.target o)) = some .directory := by
  rcases Path.isPrefix_of_passes hl with habove | ⟨m, hm, hbelow⟩
  · -- an output lies below the directory of all outputs
    have hlength := habove.length_le
    rw [place_target ht, List.length_append] at hlength
    simp only [names, List.length_cons, List.length_nil] at hlength
    omega
  · exact htree.directory_of_isPrefix hbelow (hup m hm)

end Found

end MergeTask

end CharacterArt
