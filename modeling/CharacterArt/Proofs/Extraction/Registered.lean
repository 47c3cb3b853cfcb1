import CharacterArt.Proofs.Extraction.Effects
import CharacterArt.Proofs.Extraction.Rerun

/-!
# Registered outputs

An output is written where its two names lead one after the other, it is registered under the path that
is spelled with both of them, and a walk spells the names by which it comes to a file.  The three agree
for exactly those names that are spelled as a walk would spell them.  Other names are not refused: their
output is written, but it is registered under a path that no walk finds.

## Main Definitions

* `MergeTask.IsProper` — names that are spelled as a walk would spell them
* `MergeTask.steps` — what the path of an output is made of

## Main Results

* `MergeTask.place_join_outputPath` — where the registered path leads
* `MergeTask.mem_relatives_iff` — when a walk finds an output under its registered path
* `Extraction.Course.IsOrderly.registers` — the registered paths of an extraction
* `Extraction.exists_unregistered` — an output that is reported although a result key stands for it
-/

namespace CharacterArt

open Reconciliation (OutputFile isPictureName outputsIn targets unreferenced)

/-! ### Paths made of names -/

namespace Path

variable {path : String} {parts : List (List Char)}

/-- A path that is made of names alone is relative. -/
theorem isAbsolute_of_forall (h : ∀ s ∈ segments path.toList, IsName (String.ofList s)) :
    isAbsolute path = false := by
  rw [← Bool.not_eq_true, isAbsolute_iff]
  rintro ⟨s, rest, hparts⟩
  rw [hparts] at h
  exact (h [] List.mem_cons_self).ne_empty rfl

theorem foldl_follow_of_forall (h : ∀ s ∈ parts, IsName (String.ofList s)) (l : Location) :
    parts.foldl follow l = l ++ parts.map String.ofList := by
  have hparts : (parts.map String.ofList).map String.toList = parts := by
    rw [List.map_map]
    exact List.map_id'' (fun s => String.toList_ofList) parts
  rw [← foldl_follow_names (List.forall_mem_map.mpr h), hparts]

/-- An extension does not make a path absolute. -/
theorem isAbsolute_withExtension (path : String) : isAbsolute (path ++ ".png") = isAbsolute path := by
  rw [isAbsolute, isAbsolute, String.toList_append]
  cases path.toList with
  | nil => decide
  | cons c rest => rfl

end Path

/-- A file is a picture by its name exactly if something stands before the extension. -/
theorem Reconciliation.isPictureName_withExtension {name : String} (h : '/' ∉ name.toList) :
    isPictureName (name ++ ".png") = true ↔ name ≠ "" := by
  constructor
  · rintro hpicture rfl
    exact absurd hpicture (by decide)
  · intro hne
    rw [isPictureName, Path.extension_withExtension hne h]
    decide +kernel

/-! ### Proper names -/

namespace MergeTask

variable {o : MergeOptions} {t : MergeTask} {cwd : Location}

/-- What stands between the slashes of the path that an output is registered under. -/
def steps (t : MergeTask) : List String :=
  (Path.segments t.outputPath.toList).map String.ofList

/-- The names of a task are proper if they are spelled as a walk would spell them: what stands between
their slashes leads down by one step, and something stands before the extension. -/
structure IsProper (t : MergeTask) : Prop where
  directory : ∀ s ∈ Path.segments t.directory.toList, Path.IsName (String.ofList s)
  above : ∀ s ∈ (Path.segments t.name.toList).dropLast, Path.IsName (String.ofList s)
  file : (Path.segments t.name.toList).getLast? ≠ some []

instance (t : MergeTask) : Decidable t.IsProper :=
  decidable_of_iff ((∀ s ∈ Path.segments t.directory.toList, Path.IsName (String.ofList s)) ∧
      (∀ s ∈ (Path.segments t.name.toList).dropLast, Path.IsName (String.ofList s)) ∧
      (Path.segments t.name.toList).getLast? ≠ some [])
    ⟨fun ⟨h₁, h₂, h₃⟩ => ⟨h₁, h₂, h₃⟩, fun ⟨h₁, h₂, h₃⟩ => ⟨h₁, h₂, h₃⟩⟩

theorem segments_outputPath (t : MergeTask) : Path.segments t.outputPath.toList =
    Path.segments t.directory.toList ++ Path.segments (t.name ++ ".png").toList := by
  rw [outputPath, String.append_assoc, Path.segments_slash]

theorem intercalate_steps (t : MergeTask) : String.intercalate "/" t.steps = t.outputPath := by
  have hparts : t.steps.map String.toList = Path.segments t.outputPath.toList := by
    rw [steps, List.map_map]
    exact List.map_id'' (fun s => String.toList_ofList) _
  have hpath := Path.joinWith_segments t.outputPath.toList
  rw [Path.joinWith_eq_intercalate, ← hparts] at hpath
  rw [← String.toList_inj, String.toList_intercalate]
  exact hpath

/-- The steps of an output are told by its path. -/
theorem steps_eq {l : List String} (hne : l ≠ []) (h : ∀ name ∈ l, Path.IsName name)
    (hpath : String.intercalate "/" l = t.outputPath) : t.steps = l := by
  rw [steps, ← hpath, Path.segments_names hne h, List.map_map]
  exact List.map_id'' (fun s => String.ofList_toList) l

/-- **Names are proper if the path of the output is made of names, the last of which is that of a
picture.** -/
theorem isProper_iff : t.IsProper ↔
    (∀ name ∈ t.steps, Path.IsName name) ∧ isPictureName ((t.steps.getLast?).getD "") = true := by
  obtain ⟨front, last, hname, hslash, hextended⟩ := Path.exists_segments_withExtension t.name
  have hsteps : t.steps = (Path.segments t.directory.toList).map String.ofList ++
      (front.map String.ofList ++ [last ++ ".png"]) := by
    rw [steps, segments_outputPath, hextended, List.map_append, List.map_append]
    simp
  have hlast : (Path.segments t.name.toList).getLast? ≠ some [] ↔ last ≠ "" := by
    rw [hname, List.getLast?_concat, ne_eq, Option.some.injEq, ← String.toList_inj.ne]
    rfl
  have hpicture : isPictureName ((t.steps.getLast?).getD "") = true ↔ last ≠ "" := by
    rw [hsteps, ← List.append_assoc, List.getLast?_concat, Option.getD_some,
      Reconciliation.isPictureName_withExtension hslash]
  have hfile := Path.isName_withExtension hslash
  rw [hpicture, hsteps]
  constructor
  · rintro ⟨hdirectory, habove, hne⟩
    rw [hname, List.dropLast_concat] at habove
    refine ⟨fun name hmem => ?_, hlast.mp hne⟩
    rcases List.mem_append.mp hmem with hmem | hmem
    · exact List.forall_mem_map.mpr hdirectory name hmem
    · rcases List.mem_append.mp hmem with hmem | hmem
      · exact List.forall_mem_map.mpr habove name hmem
      · rwa [List.mem_singleton.mp hmem]
  · rintro ⟨hnames, hne⟩
    refine ⟨fun s hs => hnames _ (List.mem_append_left _ (List.mem_map_of_mem hs)), ?_, hlast.mpr hne⟩
    rw [hname, List.dropLast_concat]
    exact fun s hs => hnames _
      (List.mem_append_right _ (List.mem_append_left _ (List.mem_map_of_mem hs)))

/-! ### The three paths of an output -/

/-- **The registered path leads to the output**, unless the directory has no name or the name of the
output is absolute. -/
theorem place_join_outputPath (hne : t.directory ≠ "") (hname : Path.isAbsolute t.name = false)
    (o : MergeOptions) (cwd : Location) :
    Path.place cwd (Path.join o.root t.outputPath) = Path.place cwd (t.target o) := by
  have hfile : Path.isAbsolute (t.name ++ ".png") = false := by
    rw [Path.isAbsolute_withExtension, hname]
  have habsolute : Path.isAbsolute t.outputPath = Path.isAbsolute t.directory := by
    rw [outputPath, String.append_assoc, Path.isAbsolute_slash hne]
  rw [target, Path.place_join _ hfile]
  cases hdirectory : Path.isAbsolute t.directory with
  | false =>
      rw [hdirectory] at habsolute
      rw [Path.place_join _ habsolute, Path.place_join _ hdirectory, segments_outputPath,
        List.foldl_append]
  | true =>
      rw [hdirectory] at habsolute
      rw [Path.join, if_pos habsolute, Path.join, if_pos hdirectory, Path.place, Path.place, Path.start,
        if_pos habsolute, Path.start, if_pos hdirectory, segments_outputPath, List.foldl_append]

theorem IsProper.isAbsolute_directory (h : t.IsProper) : Path.isAbsolute t.directory = false :=
  Path.isAbsolute_of_forall h.directory

theorem IsProper.isAbsolute_file (h : t.IsProper) : Path.isAbsolute (t.name ++ ".png") = false := by
  refine Path.isAbsolute_of_forall fun s hs => (isProper_iff.mp h).1 _ ?_
  rw [steps, segments_outputPath, List.map_append]
  exact List.mem_append_right _ (List.mem_map_of_mem hs)

/-- **Proper names lead below the directory of all outputs**, by the steps of the registered path. -/
theorem IsProper.place_target (h : t.IsProper) (o : MergeOptions) (cwd : Location) :
    Path.place cwd (t.target o) = Path.place cwd o.root ++ t.steps := by
  have hnames : ∀ s ∈ Path.segments t.outputPath.toList, Path.IsName (String.ofList s) :=
    fun s hs => (isProper_iff.mp h).1 _ (List.mem_map_of_mem hs)
  rw [target, Path.place_join _ h.isAbsolute_file, Path.place_join _ h.isAbsolute_directory,
    ← List.foldl_append, ← segments_outputPath, Path.foldl_follow_of_forall hnames, steps]

/-! ### Walks -/

section Walk

variable {d : Files} {f : OutputFile}

/-- The way to an output with proper names leads through the directory of all outputs. -/
theorem IsProper.resolve_root (h : t.IsProper) (hroot : o.root ≠ "")
    (hthere : d.exists? (t.target o) = true) :
    d.resolve o.root = .ok (Path.place d.cwd o.root) := by
  obtain ⟨n, hn⟩ := Option.isSome_iff_exists.mp hthere
  obtain ⟨⟨husable, hway⟩, -⟩ := Disk.find?_eq_some_iff.mp hn
  have hne : Path.join o.root t.directory ≠ "" := by
    obtain ⟨back, hback⟩ := Path.exists_join_append o.root h.isAbsolute_directory
    rw [hback, ← String.toList_inj.ne, String.toList_append]
    exact List.append_ne_nil_of_left_ne_nil (String.toList_inj.ne.mpr hroot) _
  refine Disk.resolve_eq_ok_iff.mpr ⟨?_, fun m hm => hway m ?_, rfl⟩
  · exact (husable.of_join h.isAbsolute_file hne).of_join h.isAbsolute_directory hroot
  · exact (Path.passes_join _ h.isAbsolute_file _ m).mpr
      (.inl ((Path.passes_join _ h.isAbsolute_directory _ m).mpr (.inl hm)))

/-- A walk that spells a file like an output spells a path with proper names. -/
theorem isProper_of_relative_eq (htree : d.IsTree) (hf : f ∈ outputsIn d o.root)
    (h : f.relative = t.outputPath) : t.IsProper := by
  obtain ⟨l, hl, -, hreached, -⟩ := Reconciliation.exists_reached htree hf
  obtain ⟨hpicture, hrelative, -⟩ := Reconciliation.outputFile?_eq_some_iff.mp hl
  rw [hrelative] at h
  have hsteps := steps_eq (Reconciliation.ne_nil_of_outputFile? hl) hreached.isName h
  rw [isProper_iff, hsteps]
  exact ⟨hreached.isName, hpicture⟩

/-- **A walk spells the output like its registered path, and no other file**, if the names are
proper. -/
theorem IsProper.relative_eq_iff (h : t.IsProper) (htree : d.IsTree) (hf : f ∈ outputsIn d o.root) :
    f.relative = t.outputPath ↔ Path.place d.cwd f.path = Path.place d.cwd (t.target o) := by
  obtain ⟨l, hl, -, hreached, hplace, -⟩ := Reconciliation.exists_reached htree hf
  rw [hplace, h.place_target, List.append_cancel_left_eq,
    (Reconciliation.outputFile?_eq_some_iff.mp hl).2.1]
  constructor
  · exact fun heq => (steps_eq (Reconciliation.ne_nil_of_outputFile? hl) hreached.isName heq).symm
  · rintro rfl
    exact t.intercalate_steps

/-- **A walk finds an output under its registered path exactly if the names are proper and a file is
there**, provided that the directory of all outputs has a name. -/
theorem mem_relatives_iff (htree : d.IsTree) (hthere : d.exists? (t.target o) = true) :
    t.outputPath ∈ (outputsIn d o.root).map OutputFile.relative ↔
      o.root ≠ "" ∧ t.IsProper ∧ d.isFile (t.target o) = true := by
  obtain ⟨n, hn⟩ := Option.isSome_iff_exists.mp hthere
  have hplace := (Disk.find?_eq_some_iff.mp hn).2
  rw [Disk.isFile_iff, hn, List.mem_map]
  constructor
  · rintro ⟨f, hf, heq⟩
    have hproper := isProper_of_relative_eq htree hf heq
    obtain ⟨l, -, hroot, -, hl, content, hcontent⟩ := Reconciliation.exists_reached htree hf
    rw [← hl, (hproper.relative_eq_iff htree hf).mp heq, hplace] at hcontent
    refine ⟨?_, hproper, content, hcontent⟩
    have hspelled := (Disk.resolve_eq_ok_iff.mp hroot).1.ne_empty
    rintro hempty
    rw [hempty] at hspelled
    cases hspelled
  · rintro ⟨hroot, hproper, content, hcontent⟩
    obtain ⟨-, hpicture⟩ := isProper_iff.mp hproper
    rw [hproper.place_target, hcontent] at hplace
    obtain ⟨f, hf⟩ : ∃ f, Reconciliation.outputFile? o.root t.steps = some f :=
      ⟨_, if_pos hpicture⟩
    refine ⟨f, Reconciliation.mem_outputsIn.mpr
      ⟨_, t.steps, hproper.resolve_root hroot hthere, hf, content, hplace⟩, ?_⟩
    rw [(Reconciliation.outputFile?_eq_some_iff.mp hf).2.1, t.intercalate_steps]

end Walk

end MergeTask

namespace Extraction

variable {σ : Type} {x : Extraction} {tools : Toolchain σ} {rs : Requirements} {w : World σ}
  {c : x.Course tools rs w}

/-! ### Extractions -/

namespace Course.IsOrderly

/-- No file is reported that a result key points to, if the names of its task are proper. -/
theorem place_ne_of_unreferenced (h : c.IsOrderly) {p : Plan} (hproper : p.task.IsProper)
    {key : String} (hkey : c.report.images[key]? = some p.task.outputPath) {dg : Diagnostic}
    (hdg : dg ∈ unreferenced c.final.disk x.outputDir (c.report.images.toList.map Prod.snd)) :
    Path.place w.disk.cwd (Path.join x.outputDir dg.subject) ≠ x.placeOf w.disk.cwd p := by
  obtain ⟨f, hf, rfl⟩ := List.mem_map.mp hdg
  obtain ⟨hf, hunreferenced⟩ := List.mem_filter.mp hf
  obtain ⟨l, hl, -⟩ := Reconciliation.exists_reached h.isTree_final hf
  obtain ⟨-, hrelative, hpath, -⟩ := Reconciliation.outputFile?_eq_some_iff.mp hl
  intro hplace
  -- the walk spells the file like the value of the key
  have heq : f.relative = p.task.outputPath := by
    refine (hproper.relative_eq_iff (o := x.mergeOptions) h.isTree_final hf).mpr ?_
    rw [hpath, ← hrelative, h.cwd_final]
    exact hplace
  have hmem : f.relative ∈ c.report.images.toList.map Prod.snd := by
    rw [heq]
    exact List.mem_map.mpr ⟨_, Std.TreeMap.mem_toList_iff_getElem?_eq_some.mpr hkey, rfl⟩
  rw [List.contains_iff_mem.mpr hmem] at hunreferenced
  cases hunreferenced

/-- **The registered path of an output names its file exactly if the names of its task are proper.**
An output that was written is a file in the end, and the registered path leads there unless the owner
has no name or the name of the object is absolute.  A walk finds the file under the registered path
exactly if the names are proper and the directory of all outputs has a name.  Then no other file goes by
this path, and the file is not reported if a result key points to it.  Outputs that lack a mask are
found again under the same condition, unless a directory stands in their place. -/
theorem registers (h : c.IsOrderly) :
    (∀ p ∈ c.plans, p.task.outputPath ∈ writtenBy c.main →
      c.final.disk.isFile (p.task.target x.mergeOptions) = true ∧
      (p.task.directory ≠ "" → Path.isAbsolute p.task.name = false →
        Path.place w.disk.cwd (Path.join x.outputDir p.task.outputPath) = x.placeOf w.disk.cwd p) ∧
      (p.task.outputPath ∈ (outputsIn c.final.disk x.outputDir).map OutputFile.relative ↔
        x.outputDir ≠ "" ∧ p.task.IsProper)) ∧
    (∀ p ∈ c.plans, p.task.IsProper →
      (∀ f ∈ outputsIn c.final.disk x.outputDir, f.relative = p.task.outputPath ↔
        Path.place w.disk.cwd f.path = x.placeOf w.disk.cwd p) ∧
      ∀ key : String, c.report.images[key]? = some p.task.outputPath →
        ∀ dg ∈ unreferenced c.final.disk x.outputDir (c.report.images.toList.map Prod.snd),
          Path.place w.disk.cwd (Path.join x.outputDir dg.subject) ≠ x.placeOf w.disk.cwd p) ∧
    ∀ output ∈ targets c.diagnostics, ∃ p ∈ c.plans, p.task.outputPath = output ∧
      (output ∈ writtenBy c.main → c.overridden.disk.isFile (p.task.target x.mergeOptions) = true) ∧
      (output ∈ (outputsIn c.overridden.disk x.outputDir).map OutputFile.relative ↔
        x.outputDir ≠ "" ∧ p.task.IsProper ∧
          c.overridden.disk.isFile (p.task.target x.mergeOptions) = true) := by
  have hwrittenFile : ∀ p ∈ c.plans, p.task.outputPath ∈ writtenBy c.main →
      c.overridden.disk.isFile (p.task.target x.mergeOptions) = true ∧
        c.final.disk.isFile (p.task.target x.mergeOptions) = true := by
    intro p hp hwritten
    obtain ⟨out, hout, hpath, hstatus⟩ := mem_writtenBy.mp hwritten
    exact (h.exists_of_outcome hp hout (by rw [hstatus]; rfl) hpath).2.2 hstatus
  refine ⟨fun p hp hwritten => ?_, fun p _ hproper => ⟨fun f hf => ?_, fun key hkey dg hdg => ?_⟩,
    fun output hlacks => ?_⟩
  · obtain ⟨-, hfile⟩ := hwrittenFile p hp hwritten
    refine ⟨hfile, fun hne hname => MergeTask.place_join_outputPath hne hname x.mergeOptions _, ?_⟩
    have hwalk := MergeTask.mem_relatives_iff h.isTree_final (Disk.exists?_of_isFile hfile)
    rwa [and_iff_left hfile] at hwalk
  · have hspelled := hproper.relative_eq_iff (o := x.mergeOptions) h.isTree_final hf
    rwa [h.cwd_final] at hspelled
  · exact h.place_ne_of_unreferenced hproper hkey hdg
  · obtain ⟨p, hp, rfl⟩ := exists_plan_of_mem_targets hlacks
    obtain ⟨out, hout, hsuccess, hpath⟩ := exists_outcome_of_mem_targets hlacks
    obtain ⟨hthere, -⟩ := h.exists_of_outcome hp hout hsuccess hpath
    exact ⟨p, hp, rfl, fun hwritten => (hwrittenFile p hp hwritten).1,
      MergeTask.mem_relatives_iff (o := x.mergeOptions) h.isTree_overridden hthere⟩

end Course.IsOrderly

/-! ### Two spellings

One texture, whose owner and name have slashes in one extraction, and whose owner has no name in the
other one. -/

namespace Spelling

def start (name : String) : World Unit where
  disk := Corpus.diskWith "b" [("art.ab", [.ofPicture .texture 1 name "" Sample.pixel])]
  tools := ()

def requirements (owner : String) : Requirements :=
  [{ owner := owner, index := 0, colorId := 1 }]

abbrev SpellingCourse (owner name : String) : Type :=
  (Sample.extraction "/index").Course Toolchain.inProcess (requirements owner) (start name)

/-- What is asked of an extraction of the texture. -/
structure Findings where
  /-- Where the outputs lie, under which paths they are registered, and whether their names are
  proper. -/
  plans : List (String × String × Bool)
  written : List String
  images : List (String × String)
  /-- What a walk finds in the end. -/
  walk : List String
  unresolved : List String
  diagnostics : Diagnostics
  deriving DecidableEq

/-- The findings about an extraction that ends with a report. -/
def findings {owner name : String} (c : SpellingCourse owner name) : Findings where
  plans := c.plans.map fun plan => (plan.task.target (Sample.extraction "/index").mergeOptions,
    plan.task.outputPath, decide plan.task.IsProper)
  written := writtenBy c.main
  images := c.report.images.toList
  walk := (outputsIn c.final.disk "/images").map OutputFile.relative
  unresolved := c.report.reconciled.unresolved
  diagnostics := c.report.diagnostics

/-- The same by running the extraction. -/
def findings? (owner name : String) : Option Findings :=
  let x := Sample.extraction "/index"
  match x.prepare (requirements owner) (start name).disk,
    x.run Toolchain.inProcess (requirements owner) (start name) with
  | (.ok p, d), (.ok (report, _), final) => some {
      plans := p.planning.toList.map fun plan =>
        (plan.task.target x.mergeOptions, plan.task.outputPath, decide plan.task.IsProper)
      written :=
        writtenBy (x.mainPass Toolchain.inProcess p.planning.toList { start name with disk := d }).1
      images := report.images.toList
      walk := (outputsIn final.disk "/images").map OutputFile.relative
      unresolved := report.reconciled.unresolved
      diagnostics := report.diagnostics }
  | _, _ => none

theorem exists_course_of_findings? {owner name : String} {found : Findings}
    (h : findings? owner name = some found) :
    ∃ c : SpellingCourse owner name, findings c = found := by
  unfold findings? at h
  dsimp only at h
  split at h
  · next p d report progress final hprepare hrun =>
      obtain ⟨c, rfl, rfl⟩ := exists_course hrun
      obtain ⟨hprepared, rfl⟩ := Prod.mk.inj (c.prepare_eq.symm.trans hprepare)
      obtain rfl := Except.ok.inj hprepared
      rw [c.main_eq] at h
      exact ⟨c, Option.some.inj h⟩
  · cases h

/-- All that is asked of the two extractions, in one evaluation. -/
theorem evaluated :
    findings? "A/B" "c/hero" = some {
      plans := [("/images/a/b/c/hero.png", "a/b/c/hero.png", true)]
      written := ["a/b/c/hero.png"]
      images := [("A/B/0", "a/b/c/hero.png")]
      walk := ["a/b/c/hero.png"]
      unresolved := ["a/b/c/hero.png"]
      diagnostics := [⟨.alphaNotFound, "a/b/c/hero.png", "no alpha mask candidate"⟩] } ∧
    findings? "" "hero" = some {
      plans := [("/images/hero.png", "/hero.png", false)]
      written := ["/hero.png"]
      images := [("/0", "/hero.png")]
      walk := ["hero.png"]
      unresolved := ["/hero.png"]
      diagnostics := [⟨.alphaNotFound, "/hero.png", "no alpha mask candidate"⟩,
        ⟨.unreferencedOutput, "hero.png", "no result key points to this file"⟩] } := by
  decide +kernel

theorem isOrderly_of_target {owner name target path : String} {proper : Bool}
    (c : SpellingCourse owner name) (hplans : (findings c).plans = [(target, path, proper)])
    (hrooted : ∀ e ∈ (start name).disk.nodes.toList, (start name).disk.isRooted e.1 = true)
    (hbare : ∀ e ∈ (start name).disk.nodes.toList, e.1.head? = some "tmp" → e.1 = ["tmp"])
    (havoids : AvoidsScratch [] target) : c.IsOrderly where
  tidy := Toolchain.tidy_inProcess Unit
  isTree := Disk.isTree_of_forall rfl hrooted
  scratch := Sample.lacks_opened c rfl (lacks_inScratch_of_forall hbare)
  avoids p hp := by
    have hmem := List.mem_map_of_mem (f := fun plan : Plan =>
      (plan.task.target (Sample.extraction "/index").mergeOptions, plan.task.outputPath,
        decide plan.task.IsProper)) hp
    rw [show List.map _ c.plans = _ from hplans, List.mem_singleton] at hmem
    rw [(Prod.mk.inj hmem).1]
    exact havoids

/-- The one output of the texture. -/
theorem exists_plan {owner name target path : String} {proper : Bool}
    (c : SpellingCourse owner name) (hplans : (findings c).plans = [(target, path, proper)]) :
    ∃ p ∈ c.plans, p.task.target (Sample.extraction "/index").mergeOptions = target ∧
      p.task.outputPath = path ∧ decide p.task.IsProper = proper := by
  have hmem : (target, path, proper) ∈ (findings c).plans := by
    rw [hplans]
    exact List.mem_singleton_self _
  obtain ⟨p, hp, heq⟩ := List.mem_map.mp hmem
  obtain ⟨htarget, hrest⟩ := Prod.mk.inj heq
  exact ⟨p, hp, htarget, Prod.mk.inj hrest⟩

end Spelling

open Spelling in
theorem Course.IsOrderly.registers_nested : ∃ c : SpellingCourse "A/B" "c/hero", c.IsOrderly ∧
    ∃ p ∈ c.plans, p.task.outputPath = "a/b/c/hero.png" ∧ p.task.IsProper ∧
      p.task.outputPath ∈ writtenBy c.main ∧
      c.final.disk.isFile "/images/a/b/c/hero.png" = true ∧
      "a/b/c/hero.png" ∈ (outputsIn c.final.disk "/images").map OutputFile.relative := by
  obtain ⟨c, hfindings⟩ := exists_course_of_findings? evaluated.1
  have hplans := congrArg Findings.plans hfindings
  have hwritten := congrArg Findings.written hfindings
  have horderly : c.IsOrderly :=
    isOrderly_of_target c hplans (by decide) (by decide) (avoidsScratch_of_forall (by decide))
  obtain ⟨p, hp, htarget, hpath, hproper⟩ := exists_plan c hplans
  have hproper' : p.task.IsProper := of_decide_eq_true hproper
  have hmem : p.task.outputPath ∈ writtenBy c.main := by
    rw [show writtenBy c.main = _ from hwritten, hpath]
    exact List.mem_singleton_self _
  obtain ⟨hregistered, -, -⟩ := horderly.registers
  obtain ⟨hfile, -, hwalk⟩ := hregistered p hp hmem
  rw [htarget] at hfile
  have hfound := hwalk.mpr ⟨by decide, hproper'⟩
  rw [hpath] at hfound
  exact ⟨c, horderly, p, hp, hpath, hproper', hmem, hfile, hfound⟩

open Spelling in
/-- **An output whose owner has no name is registered under a path that names no file.**  The path is
absolute, so it does not lead to the file that was written; a walk finds the file under another path and
reports it although a result key stands for it, and the output that lacks a mask is not found again. -/
theorem exists_unregistered : ∃ c : SpellingCourse "" "hero", c.IsOrderly ∧
    ∃ p ∈ c.plans, p.task.outputPath ∈ writtenBy c.main ∧
      c.report.images["/0"]? = some p.task.outputPath ∧
      Path.place [] (p.task.target (Sample.extraction "/index").mergeOptions) = ["images", "hero.png"] ∧
      Path.place [] (Path.join "/images" p.task.outputPath) = ["hero.png"] ∧
      (outputsIn c.final.disk "/images").map OutputFile.relative = ["hero.png"] ∧
      ⟨.unreferencedOutput, "hero.png", "no result key points to this file"⟩ ∈ c.report.diagnostics ∧
      p.task.outputPath ∈ c.report.reconciled.unresolved ∧
      p.task.outputPath ∉ (outputsIn c.overridden.disk "/images").map OutputFile.relative := by
  obtain ⟨c, hfindings⟩ := exists_course_of_findings? evaluated.2
  have hplans := congrArg Findings.plans hfindings
  have hwritten : writtenBy c.main = ["/hero.png"] := congrArg Findings.written hfindings
  have himages : c.report.images.toList = [("/0", "/hero.png")] := congrArg Findings.images hfindings
  have hwalk := congrArg Findings.walk hfindings
  have hunresolved : c.report.reconciled.unresolved = ["/hero.png"] :=
    congrArg Findings.unresolved hfindings
  have hdiagnostics : c.report.diagnostics = _ := congrArg Findings.diagnostics hfindings
  have horderly : c.IsOrderly :=
    isOrderly_of_target c hplans (by decide) (by decide) (avoidsScratch_of_forall (by decide))
  obtain ⟨p, hp, htarget, hpath, hproper⟩ := exists_plan c hplans
  refine ⟨c, horderly, p, hp, ?_, ?_, ?_, ?_, hwalk, ?_, ?_, ?_⟩
  · rw [hwritten, hpath]
    exact List.mem_singleton_self _
  · rw [hpath, ← Std.TreeMap.mem_toList_iff_getElem?_eq_some, himages]
    exact List.mem_singleton_self _
  · rw [htarget]
    decide
  · rw [hpath]
    decide
  · rw [hdiagnostics]
    decide
  · rw [hunresolved, hpath]
    exact List.mem_singleton_self _
  · intro hmem
    obtain ⟨f, hf, heq⟩ := List.mem_map.mp hmem
    have hnames := MergeTask.isProper_of_relative_eq (o := (Sample.extraction "/index").mergeOptions)
      horderly.isTree_overridden hf heq
    rw [decide_eq_false_iff_not] at hproper
    exact hproper hnames

end Extraction

end CharacterArt
