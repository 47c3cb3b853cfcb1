import CharacterArt.Proofs.Bundle.Corpus
import CharacterArt.Proofs.Disk.Routes
import CharacterArt.Proofs.Extraction.Missing
import CharacterArt.Proofs.Merge.Confinement
import CharacterArt.Proofs.Picture

/-!
# Where merging writes

The place of an output is joined from the directory of all outputs, the owner of a requirement and the
name of a texture, and neither of these is checked.  So both passes write below the directory of all
outputs as long as the two names together lead down from there.  Names that lead up, and absolute ones,
may lead anywhere.

## Main Definitions

* `Extraction.IsPass` — the tasks of the two passes
* `outputRoute` — the route to an output from the directory of all outputs

## Main Results

* `Extraction.IsPass.exists_requirement_of_changed` — the files that merging changes, and which of them
  lie below the directory of all outputs
* `forall_staysBelow_outputRoute` — the names that lead below every directory
* `Extraction.exists_escaped` — a texture whose output lies elsewhere
-/

namespace CharacterArt

/-! ### Routes to outputs -/

/-- The route to an output from the directory of all outputs. -/
def outputRoute (directory name : String) : Path.Route :=
  .of [directory, name ++ ".png"]

/-- An output lies where its route leads. -/
theorem MergeTask.place_target_eq_lead (t : MergeTask) (o : MergeOptions) (cwd : Location) :
    Path.place cwd (t.target o) = (outputRoute t.directory t.name).lead (Path.place cwd o.root) :=
  Path.place_foldl_join o.root [t.directory, t.name ++ ".png"] cwd

/-- A route to an output ends with the name of a file. -/
theorem down_outputRoute_ne_nil (directory name : String) : (outputRoute directory name).down ≠ [] := by
  obtain ⟨front, last, -, hslash, hparts⟩ := Path.exists_segments_withExtension name
  have hlast := Path.isName_withExtension hslash
  have hparent : (last ++ ".png").toList ≠ ['.', '.'] := String.toList_inj.ne.mpr hlast.ne_parent
  rw [outputRoute, Path.Route.of, List.foldl_cons, List.foldl_cons, List.foldl_nil, Path.Route.join,
    hparts, List.foldl_append, List.foldl_cons, List.foldl_nil, Path.Route.next,
    if_neg (Bool.eq_false_iff.mp hlast.isIdle_eq), if_neg hparent]
  exact List.append_ne_nil_of_right_ne_nil _ (List.cons_ne_nil _ _)

/-- **The names that lead below every directory**: neither is absolute, and together they lead down. -/
theorem forall_staysBelow_outputRoute {directory name : String} :
    (∀ root, (outputRoute directory name).StaysBelow root) ↔
      (outputRoute directory name).isAbsolute = false ∧ (outputRoute directory name).up = 0 := by
  rw [Path.Route.forall_staysBelow_iff]
  refine and_congr_right fun _ => and_iff_left ?_
  exact down_outputRoute_ne_nil directory name

namespace Extraction

variable {σ : Type} {x : Extraction} {tools : Toolchain σ} {rs : Requirements} {w v : World σ}
  {p : Prepared} {d opened : Files} {o : MergeOptions} {tasks : List MergeTask}

/-- The tasks of the two passes, whatever the first one has written and whatever files the second one
finds. -/
inductive IsPass (x : Extraction) (p : Prepared) : MergeOptions → List MergeTask → Prop where
  | main : IsPass x p x.mergeOptions (p.planning.toList.map Plan.task)
  | override (written : List String) (d : Files) : IsPass x p { x.mergeOptions with force := true }
      (((deferredOf p.planning.toList written).filter (x.hasMask d)).map x.deferredTask)

namespace IsPass

/-- The outputs of both passes lie in one directory. -/
theorem root_eq (h : x.IsPass p o tasks) : o.root = x.outputDir := by
  cases h <;> rfl

/-- The tasks of both passes are those of plans, up to their masks. -/
theorem exists_plan_of_mem (h : x.IsPass p o tasks) {t : MergeTask} (ht : t ∈ tasks) :
    ∃ plan ∈ p.planning.toList, t.directory = plan.task.directory ∧ t.name = plan.task.name := by
  cases h with
  | main =>
      obtain ⟨plan, hplan, rfl⟩ := List.mem_map.mp ht
      exact ⟨plan, hplan, rfl, rfl⟩
  | override written d =>
      obtain ⟨waiting, hwaiting, rfl⟩ := List.mem_map.mp ht
      obtain ⟨plan, hplan, -, -, htask⟩ := mem_deferredOf.mp (List.mem_of_mem_filter hwaiting)
      exact ⟨plan, hplan, by rw [← htask]; rfl, by rw [← htask]; rfl⟩

/-- **The files that merging changes.**  Whoever does the tasks of a pass, in whatever order and however
far, a file that was created or overwritten is the output of a requirement, unless it lies in a scratch
directory.  It lies below the directory of all outputs exactly if the names of the owner and of the
texture lead there. -/
theorem exists_requirement_of_changed (hpass : x.IsPass p o tasks) (htools : tools.Tidy)
    (hprepare : x.prepare rs d = (.ok p, opened)) (hreaches : MergePool.Reaches tools o tasks w v)
    {l : Location} {content : Content} (hscratch : ¬ InScratch l)
    (hfile : v.disk.node? l = some (.file content))
    (hchanged : w.disk.node? l ≠ some (.file content)) :
    ∃ r ∈ rs, ∃ color, p.resolution.images[r.colorId]? = some color ∧
      l = Path.place w.disk.cwd
        (Path.join (Path.join x.outputDir (Text.lowercase r.owner)) (color.name ++ ".png")) ∧
      (Path.IsBelow (Path.place w.disk.cwd x.outputDir) l ↔
        (outputRoute (Text.lowercase r.owner) color.name).StaysBelow
          (Path.place w.disk.cwd x.outputDir)) := by
  obtain ⟨t, ht, rfl⟩ := hreaches.exists_target htools hscratch hfile hchanged
  obtain ⟨plan, hplan, hdirectory, hname⟩ := hpass.exists_plan_of_mem ht
  obtain ⟨s, himages, hplanning, -⟩ := exists_sources_of_prepare hprepare
  have hsound := Planning.sound_ofRequirements s rs
  rw [← hplanning] at hsound
  obtain ⟨r, hr, color, hcolor, howner, hobject, -⟩ :=
    (hsound.isFor ((Planning.mem_toList hsound).mp hplan)).exists_requirement
  rw [himages] at hcolor
  have hdirectory' : t.directory = Text.lowercase r.owner := hdirectory.trans howner
  have hname' : t.name = color.name := hname.trans hobject
  refine ⟨r, hr, color, hcolor, ?_, ?_⟩
  · rw [MergeTask.target, hpass.root_eq, hdirectory', hname']
  · rw [MergeTask.place_target_eq_lead, hpass.root_eq, hdirectory', hname',
      Path.Route.isBelow_lead_iff]

end IsPass

/-! ### A stray texture

The texture of a character has a name that leads up. -/

namespace Stray

def pixel : Picture :=
  .ofPixel ⟨16, 32, 48, 255⟩

def start : World Unit where
  disk := Corpus.diskWith "b" [("art.ab", [.ofPicture .texture 1 "../../up" "" pixel])]
  tools := ()

def extraction : Extraction where
  bundleDir := "/b"
  outputDir := "/images"
  config := { indexPath := some "/index" }

def requirements : Requirements :=
  [{ owner := "A", index := 0, colorId := 1 }]

/-- The world after the first pass. -/
def merged (p : Prepared) (opened : Files) : World Unit :=
  (MergePool.runInOrder Toolchain.inProcess extraction.mergeOptions (p.planning.toList.map Plan.task)
    { start with disk := opened }).2

/-- The first pass creates the file of the texture that leads up, beside the directory of all
outputs. -/
theorem exists_created : ∃ p opened content,
    extraction.prepare requirements start.disk = (.ok p, opened) ∧
    opened.node? ["up.png"] = none ∧
    (merged p opened).disk.node? ["up.png"] = some (.file content) := by
  have hfacts : (extraction.prepare requirements start.disk).2.node? ["up.png"] = none ∧
      (extraction.prepare requirements start.disk).1.toOption.any (fun p =>
        (merged p (extraction.prepare requirements start.disk).2).disk.isFile "/up.png") = true := by
    decide +kernel
  match hprepare : extraction.prepare requirements start.disk with
  | (.error e, opened) =>
      rw [hprepare] at hfacts
      cases hfacts.2
  | (.ok p, opened) =>
      rw [hprepare] at hfacts
      obtain ⟨hbare, hthere⟩ := hfacts
      have hfile : (merged p opened).disk.isFile "/up.png" = true := hthere
      unfold Disk.isFile at hfile
      split at hfile
      · next content hfound =>
          exact ⟨p, opened, content, rfl, hbare, (Disk.find?_eq_some_iff.mp hfound).2⟩
      · cases hfile

end Stray

open Stray in
theorem exists_requirement_of_changed_stray : ∃ (p : Prepared) (opened : Files) (content : Content),
    extraction.prepare requirements start.disk = (.ok p, opened) ∧
    (merged p opened).disk.node? ["up.png"] = some (.file content) ∧
    ∃ r ∈ requirements, ∃ color, p.resolution.images[r.colorId]? = some color ∧
      ["up.png"] = Path.place opened.cwd
        (Path.join (Path.join "/images" (Text.lowercase r.owner)) (color.name ++ ".png")) ∧
      ¬ (outputRoute (Text.lowercase r.owner) color.name).StaysBelow ["images"] := by
  obtain ⟨p, opened, content, hprepare, hbare, hcreated⟩ := exists_created
  have hout : ¬ InScratch ["up.png"] := fun h => absurd h.head?_eq (by decide)
  obtain ⟨r, hr, color, hcolor, hl, hbelow⟩ := IsPass.main.exists_requirement_of_changed
    (Toolchain.tidy_inProcess Unit) hprepare .inOrder hout hcreated (by rw [hbare]; exact nofun)
  have hroot : Path.place opened.cwd extraction.outputDir = ["images"] := rfl
  rw [hroot] at hbelow
  exact ⟨p, opened, content, hprepare, hcreated, r, hr, color, hcolor, hl,
    fun hstays => absurd (hbelow.mpr hstays) (by decide)⟩

open Stray in
/-- **A texture may take its output elsewhere**: merging creates a file that does not lie below the
directory of all outputs. -/
theorem exists_escaped : ∃ (p : Prepared) (opened : Files) (tasks : List MergeTask) (o : MergeOptions)
    (v : World Unit) (l : Location) (content : Content),
    extraction.prepare requirements start.disk = (.ok p, opened) ∧ extraction.IsPass p o tasks ∧
    MergePool.Reaches Toolchain.inProcess o tasks { start with disk := opened } v ∧ ¬ InScratch l ∧
    opened.node? l = none ∧ v.disk.node? l = some (.file content) ∧
    ¬ Path.IsBelow (Path.place opened.cwd extraction.outputDir) l := by
  obtain ⟨p, opened, content, hprepare, hbare, hcreated⟩ := exists_created
  have hout : ¬ InScratch ["up.png"] := fun h => absurd h.head?_eq (by decide)
  have hbeside : ¬ Path.IsBelow ["images"] ["up.png"] := by decide
  exact ⟨p, opened, _, _, merged p opened, ["up.png"], content, hprepare, .main, .inOrder, hout, hbare,
    hcreated, hbeside⟩

end Extraction

end CharacterArt
