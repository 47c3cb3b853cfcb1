import CharacterArt.Proofs.Extraction.Outputs
import CharacterArt.Proofs.Merge.Neighbors
import CharacterArt.Proofs.Picture

/-!
# The order of the first pass

The first pass has one task for each output, so its tasks have nothing in common but directories,
which the first one that needs them makes.  Any number of workers may do the tasks in any order, and
between two steps of one task there may be any steps of others.

One thing must not happen: that a directory which one task makes lets the path to another output
lead somewhere.  It does if the directory of all outputs is given by a path that leads through a
missing directory and up again.  Then an output that is there all the time is found only by tasks
that look for it late enough.

## Main Definitions

* `Extraction.IsReady` — a disk on which outputs may be produced in any order

## Main Results

* `Extraction.isReady_of_isTree` — when outputs may be produced in any order
* `Extraction.mainPass_of_run` — the first pass does not depend on the order
* `Extraction.exists_detour` — it does depend on it, if the directory of all outputs is found only later
-/

namespace CharacterArt

namespace Extraction

variable {σ : Type} {x : Extraction} {tools : Toolchain σ} {w : World σ} {s : Sources}
  {rs : Requirements}

/-- A disk on which outputs may be produced in any order.  It has a directory for scratch
directories and none in it yet, and the outputs lie outside of it.  Outputs that are there are found
there, and none lies on the way to the directory of all outputs, if that is not a directory yet. -/
structure IsReady (x : Extraction) (plans : List Plan) (d : Files) : Prop where
  cwd : d.node? d.cwd = some .directory
  bare : d.Lacks InScratch
  temporary : d.node? ["tmp"] = some .directory
  avoids : ∀ p ∈ plans, AvoidsScratch d.cwd (p.task.target x.mergeOptions)
  reached : ∀ p ∈ plans, d.node? (x.placeOf d.cwd p) ≠ none →
    ∀ l, Path.Passes d.cwd (p.task.target x.mergeOptions) l → d.node? l = some .directory
  clear : ∀ p ∈ plans, Path.Passes d.cwd x.outputDir (x.placeOf d.cwd p) →
    d.node? (x.placeOf d.cwd p) = some .directory

/-- **Outputs may be produced in any order**, if the path of the directory of all outputs leads up
only from directories that are there. -/
theorem isReady_of_isTree {d : Files} {plans : List Plan} (htree : d.IsTree)
    (hbare : d.Lacks InScratch) (htemporary : d.node? ["tmp"] = some .directory)
    (hnamed : ∀ p ∈ plans, p.task.IsNamed)
    (havoids : ∀ p ∈ plans, AvoidsScratch d.cwd (p.task.target x.mergeOptions))
    (hup : ∀ l, Path.LeadsUp d.cwd x.outputDir l → d.node? l = some .directory) :
    x.IsReady plans d where
  cwd := htree.cwd
  bare := hbare
  temporary := htemporary
  avoids := havoids
  reached p hp hthere _ hl :=
    MergeTask.directory_of_passes_target htree (hnamed p hp) hup hthere hl
  clear p hp hl := MergeTask.directory_of_passes_root htree (hnamed p hp) hup hl

/-- The tasks of planned outputs share nothing but directories. -/
theorem IsReady.neighbors {d : Files} (h : x.IsReady (Planning.ofRequirements s rs).toList d)
    (hnamed : ∀ p ∈ (Planning.ofRequirements s rs).toList, p.task.IsNamed) :
    MergePool.Neighbors x.mergeOptions
      ((Planning.ofRequirements s rs).toList.map Plan.task) d where
  cwd := h.cwd
  bare := h.bare
  temporary := h.temporary
  named := List.forall_mem_map.mpr hnamed
  unmasked := by
    refine List.forall_mem_map.mpr fun p hp => ?_
    have hsound := Planning.sound_ofRequirements s rs
    exact (hsound.isFor ((Planning.mem_toList hsound).mp hp)).decided.mask_ne_file
  distinct := by
    rw [List.map_map]
    exact Planning.nodup_toList (Planning.sound_ofRequirements s rs)
  avoids := List.forall_mem_map.mpr h.avoids
  reached := List.forall_mem_map.mpr h.reached
  clear := List.forall_mem_map.mpr h.clear

/-- **The first pass does not depend on the order**, if owners and objects have plain names and the
tool is deterministic.  Any number of workers that do the tasks in any order, until each one has
ended, leave the same outcomes and the same files as the tasks one after the other. -/
theorem mainPass_of_run (h : x.IsReady (Planning.ofRequirements s rs).toList w.disk)
    (hnamed : ∀ p ∈ (Planning.ofRequirements s rs).toList, p.task.IsNamed) (htools : tools.Tidy)
    (hdet : tools.Deterministic) {workers : Nat} {history : List MergePool.Event}
    {pool : MergePool.State σ}
    (hrun : (MergePool.State.start workers w).run tools x.mergeOptions history = some pool)
    (hsubmitted : pool.submitted = (Planning.ofRequirements s rs).toList.map Plan.task)
    (hended : ∀ out ∈ pool.report.outcomes, out.status ≠ .timedOut) :
    pool.report.outcomes =
        (x.mainPass tools (Planning.ofRequirements s rs).toList w).1.outcomes ∧
      (x.mainPass tools (Planning.ofRequirements s rs).toList w).2.disk.Matches pool.world.disk := by
  have hneighbors := h.neighbors hnamed
  rw [← hsubmitted] at hneighbors
  obtain ⟨houtcomes, hdisk⟩ :=
    (hneighbors.confluent htools hdet).agrees_runInOrder hrun hended
  rw [hsubmitted] at houtcomes hdisk
  exact ⟨houtcomes, Disk.matches_iff_agreesOn.mpr hdisk⟩

/-! ### Pioneers

One character has two pictures, and nothing stands where their outputs go but an old file in the
place of the second one. -/

namespace Pioneers

open MergePool (Event)

/-- An object with a picture of one pixel. -/
def asset (id : PathId) (name : String) : Asset :=
  ⟨id, name, .texture, "art", "", .ofPixel ⟨16, 32, 48, 255⟩⟩

def sources : Sources where
  index := {}
  corpus := ⟨"/b", ∅⟩
  disk := {}
  images := .ofList [((1 : PathId), asset 1 "hero"), (2, asset 2 "rival")]
  matcher := {}
  nameKeys := false

def requirements : Requirements :=
  [{ owner := "A", index := 0, colorId := 1 }, { owner := "A", index := 1, colorId := 2 }]

def plans : List Plan :=
  (Planning.ofRequirements sources requirements).toList

/-- Outputs go to a given directory. -/
def extraction (root : String) : Extraction where
  bundleDir := "/b"
  outputDir := root

def start : World Unit where
  disk := (((({} : Files).put ["tmp"] .directory).put ["images"] .directory).put ["images", "a"]
    .directory).put ["images", "a", "rival.png"] (.file (.picture (.ofPixel ⟨0, 0, 0, 0⟩)))
  tools := ()

/-- Two workers begin at once, and go on in some way until both have reported. -/
def pool (root : String) (turns : List Event) : Option (MergePool.State Unit) :=
  (MergePool.State.start 2 start).run Toolchain.inProcess (extraction root).mergeOptions
    ((plans.map Plan.task).mapIdx .submit ++ [.start 0, .start 1] ++ turns ++
      [.drain, .receive, .receive, .exit 0, .exit 1, .join])

/-- Each worker waits for the other one after every step. -/
def alternating : List Event :=
  (List.replicate 6 [.advance 0, .advance 1]).flatten ++
    [.finish 1, .report 1, .finish 0, .report 0]

/-- The second worker does all of its task before the first one. -/
def backwards : List Event :=
  List.replicate 6 (.advance 1) ++ [.finish 1, .report 1] ++
    List.replicate 6 (.advance 0) ++ [.finish 0, .report 0]

theorem isTree : start.disk.IsTree := by
  refine Disk.isTree_of_forall rfl ?_
  decide

theorem bare : start.disk.Lacks InScratch :=
  lacks_inScratch_of_forall (by decide)

theorem isNamed : ∀ p ∈ plans, p.task.IsNamed := by
  have hnames : ∀ p ∈ plans, Path.IsName p.task.directory ∧ Path.IsName p.task.name := by
    decide
  exact fun p hp => ⟨(hnames p hp).1, (hnames p hp).2⟩

/-- All that is asked of the two workers that take turns, in one evaluation. -/
theorem evaluated_alternating :
    (pool "/images/../out" alternating).any (fun s =>
      decide (s.submitted = plans.map Plan.task ∧
        ∀ out ∈ s.report.outcomes, out.status ≠ .timedOut)) = true ∧
    ∀ p ∈ plans, ∀ m ∈ Path.way (Path.start [] (p.task.target
      (extraction "/images/../out").mergeOptions)) (Path.segments (p.task.target
        (extraction "/images/../out").mergeOptions).toList) ++
          [Path.place [] (p.task.target (extraction "/images/../out").mergeOptions)],
      m.head? ≠ some "tmp" := by
  decide +kernel

/-- Both workers make the directories of their outputs, and neither sees that the other one does. -/
theorem exists_pool_alternating : ∃ s, pool "/images/../out" alternating = some s ∧
    s.submitted = plans.map Plan.task ∧ ∀ out ∈ s.report.outcomes, out.status ≠ .timedOut := by
  have hpool := evaluated_alternating.1
  rw [Option.any_eq_true] at hpool
  simpa only [decide_eq_true_eq] using hpool

theorem isReady : (extraction "/images/../out").IsReady plans start.disk := by
  have hway : ∀ l ∈ Path.way (Path.start [] "/images/../out") (Path.segments "/images/../out".toList),
      l = [] ∨ l = ["images"] := by
    decide
  refine isReady_of_isTree isTree bare rfl isNamed
    (fun p hp => avoidsScratch_of_forall (evaluated_alternating.2 p hp)) fun l hl => ?_
  rcases hway l (Path.mem_way.mpr hl.passes) with rfl | rfl <;> rfl

end Pioneers

open Pioneers in
theorem mainPass_of_run_pioneers : (Toolchain.inProcess : Toolchain Unit).Tidy ∧
    (Toolchain.inProcess : Toolchain Unit).Deterministic ∧
    (extraction "/images/../out").IsReady plans start.disk ∧ (∀ p ∈ plans, p.task.IsNamed) ∧
    ∃ s, pool "/images/../out" alternating = some s ∧ s.submitted = plans.map Plan.task ∧
      (∀ out ∈ s.report.outcomes, out.status ≠ .timedOut) ∧
      s.report.outcomes =
        ((extraction "/images/../out").mainPass Toolchain.inProcess plans start).1.outcomes ∧
      ((extraction "/images/../out").mainPass Toolchain.inProcess plans start).2.disk.Matches
        s.world.disk := by
  have htools := Toolchain.tidy_inProcess Unit
  have hdet := Toolchain.deterministic_inProcess Unit
  obtain ⟨s, hrun, hsubmitted, hended⟩ := exists_pool_alternating
  obtain ⟨houtcomes, hdisk⟩ :=
    mainPass_of_run isReady isNamed htools hdet hrun hsubmitted hended
  exact ⟨htools, hdet, isReady, isNamed, s, hrun, hsubmitted, hended, houtcomes, hdisk⟩

open Pioneers in
/-- If the directory of all outputs is only found once a directory was made, the order of the tasks
matters: in order, the second output counts as found, and backwards it is written anew. -/
theorem exists_detour : (Toolchain.inProcess : Toolchain Unit).Tidy ∧
    (Toolchain.inProcess : Toolchain Unit).Deterministic ∧
    start.disk.IsTree ∧ start.disk.Lacks InScratch ∧ start.disk.node? ["tmp"] = some .directory ∧
    (∀ p ∈ plans, p.task.IsNamed) ∧
    ∃ s, pool "/images/x/.." backwards = some s ∧ s.submitted = plans.map Plan.task ∧
      (∀ out ∈ s.report.outcomes, out.status ≠ .timedOut) ∧
      s.report.outcomes ≠
        ((extraction "/images/x/..").mainPass Toolchain.inProcess plans start).1.outcomes := by
  have hpool : (pool "/images/x/.." backwards).any (fun s =>
      decide (s.submitted = plans.map Plan.task ∧
        (∀ out ∈ s.report.outcomes, out.status ≠ .timedOut) ∧
        s.report.outcomes ≠
          ((extraction "/images/x/..").mainPass Toolchain.inProcess plans start).1.outcomes)) =
      true := by
    decide +kernel
  rw [Option.any_eq_true] at hpool
  simp only [decide_eq_true_eq] at hpool
  exact ⟨Toolchain.tidy_inProcess Unit, Toolchain.deterministic_inProcess Unit, isTree, bare, rfl,
    isNamed, hpool⟩

end Extraction

end CharacterArt
