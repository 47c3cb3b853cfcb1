import CharacterArt.Proofs.Extraction.MainOrder
import CharacterArt.Proofs.Extraction.OverrideOrder
import CharacterArt.Proofs.Reconciliation.Agreement

/-!
# Extractions with many workers

Both passes of an extraction have pools of workers, whose steps mix in any way.  If neither pass
depends on the order of its tasks, then the whole extraction does not: it ends with the report that
it ends with when the tasks run one after the other, and it leaves the same files.  Only the greatest
number of tasks that ran at once tells the two apart.

The pools find different worlds, since the tool may remember in which order it was called.  So each
phase is compared on disks that hold the same, and the tool goes by the files alone.

## Main Definitions

* `MergePool.Finished` — a pool that has done its tasks, each one to its end
* `Extraction.FinishedCourse` — the phases of an extraction whose passes have such pools

## Main Results

* `MergePool.runInOrder_agrees` — tasks in order on disks that hold the same
* `MergePool.Finished.agrees` — a pool, and tasks in order on a disk that holds the same
* `Extraction.FinishedCourse.run_eq` — an extraction does not depend on its workers
-/

namespace CharacterArt

namespace MergePool

variable {σ : Type} {tools : Toolchain σ} {o : MergeOptions} {tasks : List MergeTask}
  {w w' : World σ}

/-- Tasks in order, numbered from some number on, go by the files. -/
theorem runFrom_agrees (htools : tools.Tidy) (hdet : tools.Deterministic) (n : Nat)
    (ts : List MergeTask) (h : w.disk.AgreesOn (fun _ => True) w'.disk) :
    (runFrom tools o n ts w').1 = (runFrom tools o n ts w).1 ∧
      (runFrom tools o n ts w).2.disk.AgreesOn (fun _ => True) (runFrom tools o n ts w').2.disk := by
  induction ts generalizing n w w' with
  | nil => exact ⟨rfl, h⟩
  | cons t rest ih =>
      obtain ⟨hresult, hdisk⟩ :=
        (MergeTask.isLocal_job_everywhere (t := t) (o := o) htools hdet (.merge n)
          w.disk.cwd).run_agrees rfl h
      obtain ⟨hstatuses, hleft⟩ := ih (n + 1) hdisk
      rw [runFrom_cons, runFrom_cons, hresult]
      exact ⟨by rw [hstatuses], hleft⟩

/-- **Tasks in order go by the files**: on disks that hold the same they come to the same report, and
they leave disks that hold the same. -/
theorem runInOrder_agrees (htools : tools.Tidy) (hdet : tools.Deterministic) (ts : List MergeTask)
    (h : w.disk.AgreesOn (fun _ => True) w'.disk) :
    (runInOrder tools o ts w').1 = (runInOrder tools o ts w).1 ∧
      (runInOrder tools o ts w).2.disk.AgreesOn (fun _ => True) (runInOrder tools o ts w').2.disk := by
  obtain ⟨hstatuses, hleft⟩ := runFrom_agrees (o := o) htools hdet 0 ts h
  unfold runInOrder
  dsimp only
  exact ⟨by rw [hstatuses], hleft⟩

/-- A pool of any number of workers has done tasks, in any order, and each one has ended. -/
structure Finished (tools : Toolchain σ) (o : MergeOptions) (tasks : List MergeTask)
    (w : World σ) where
  workers : Nat
  history : List Event
  pool : State σ
  run_eq : (State.start workers w).run tools o history = some pool
  submitted_eq : pool.submitted = tasks
  ended : ∀ out ∈ pool.report.outcomes, out.status ≠ .timedOut

/-- **A pool comes to what its tasks come to in order on a disk that holds the same**, if all
schedules of the tasks come to the same. -/
theorem Finished.agrees (f : Finished tools o tasks w') (hconfluent : Confluent tools o tasks w')
    (htools : tools.Tidy) (hdet : tools.Deterministic)
    (h : w.disk.AgreesOn (fun _ => True) w'.disk) :
    f.pool.report.outcomes = (runInOrder tools o tasks w).1.outcomes ∧
      (runInOrder tools o tasks w).2.disk.AgreesOn (fun _ => True) f.pool.world.disk := by
  obtain ⟨hreport, hleft⟩ := runInOrder_agrees (o := o) htools hdet tasks h
  rw [← f.submitted_eq] at hconfluent
  obtain ⟨houtcomes, hdisk⟩ := hconfluent.agrees_runInOrder f.run_eq f.ended
  rw [f.submitted_eq] at houtcomes hdisk
  exact ⟨by rw [houtcomes, hreport], hleft.trans hdisk⟩

end MergePool

namespace Extraction

variable {σ : Type} {x : Extraction} {tools : Toolchain σ} {rs : Requirements} {w : World σ}

/-! ### What is said of the files -/

section Agreement

variable {d d' : Files} (h : d.AgreesOn (fun _ => True) d')

include h

theorem hasMask_agrees (o : Deferred) : x.hasMask d' o = x.hasMask d o := by
  unfold hasMask Disk.isFile
  rw [h.find?_eq fun _ _ => trivial]

theorem lackingAlpha_agrees (plans : List Plan) {r r' : DrainReport}
    (houtcomes : r'.outcomes = r.outcomes) :
    x.lackingAlpha d' plans r' = x.lackingAlpha d plans r := by
  have hopaque : ∀ output, x.isOpaqueOutput d' output = x.isOpaqueOutput d output :=
    fun output => isOpaqueOutput_congr (h.read_eq fun _ _ => trivial)
  simp only [lackingAlpha, writtenBy, houtcomes, hopaque]

/-- What is wrong before anything is mended depends on the outcomes of both passes and on the files
between them. -/
theorem troubles_agrees (p : Prepared) {main main' second second' : DrainReport}
    (hmain : main'.outcomes = main.outcomes) (hsecond : second'.outcomes = second.outcomes) :
    x.troubles p main' d' second' = x.troubles p main d second := by
  have hmissing : ∀ os : List Deferred, x.missingMasks d' os = x.missingMasks d os := by
    intro os
    simp only [missingMasks, hasMask_agrees h]
  unfold troubles
  rw [lackingAlpha_agrees h _ hmain, hmissing, hmain, writtenBy, hmain, ← writtenBy,
    overrideFailures, hsecond, ← overrideFailures]

end Agreement

/-! ### Extractions with pools -/

/-- The phases of an extraction that ends with a report, where pools do the tasks of both passes. -/
structure FinishedCourse (x : Extraction) (tools : Toolchain σ) (rs : Requirements) (w : World σ) where
  prepared : Prepared
  /-- The files when the first output is merged. -/
  opened : Files
  prepare_eq : x.prepare rs w.disk = (.ok prepared, opened)
  main : MergePool.Finished tools x.mergeOptions (prepared.planning.toList.map Plan.task)
    { w with disk := opened }
  second : MergePool.Finished tools { x.mergeOptions with force := true }
    (((deferredOf prepared.planning.toList (writtenBy main.pool.report)).filter
      (x.hasMask main.pool.world.disk)).map x.deferredTask) main.pool.world
  reconciled : ReconcileReport
  final : World σ
  reconcile_eq : reconcile tools x.outputDir (x.troubles prepared main.pool.report
    main.pool.world.disk second.pool.report) second.pool.world = (.ok reconciled, final)
  hasDeadline : (x.config.deadline? x.cores x.now).isSome
  canOverride : x.canOverride
    (deferredOf prepared.planning.toList (writtenBy main.pool.report)) = true

namespace FinishedCourse

/-- The outputs to produce. -/
def plans (c : x.FinishedCourse tools rs w) : List Plan :=
  c.prepared.planning.toList

/-- The outputs that were written and wait for another output. -/
def deferred (c : x.FinishedCourse tools rs w) : List Deferred :=
  deferredOf c.plans (writtenBy c.main.pool.report)

/-- The report at the end. -/
def report (c : x.FinishedCourse tools rs w) : ExtractionReport where
  images := ExtractionReport.imagesOf c.main.pool.report.outcomes
  sync := c.prepared.sync
  bundlesDecoded := c.prepared.resolution.bundlesDecoded
  written := c.main.pool.report.written
  cached := c.main.pool.report.cached
  failed := c.main.pool.report.failed + c.second.pool.report.failed
  peak := max c.main.pool.report.peak c.second.pool.report.peak
  reconciled := c.reconciled
  diagnostics := withoutMended c.reconciled (x.troubles c.prepared c.main.pool.report
      c.main.pool.world.disk c.second.pool.report) ++
    Reconciliation.unreferenced c.final.disk x.outputDir
      ((ExtractionReport.imagesOf c.main.pool.report.outcomes).toList.map Prod.snd)

section Agreement

variable {c : x.FinishedCourse tools rs w} (htools : tools.Tidy) (hdet : tools.Deterministic)

include htools hdet

/-- The first pass comes to what its tasks come to in order. -/
theorem main_agrees (hready : x.IsReady c.plans c.opened)
    (hnamed : ∀ p ∈ c.plans, p.task.IsNamed) :
    c.main.pool.report.outcomes =
        (x.mainPass tools c.plans { w with disk := c.opened }).1.outcomes ∧
      (x.mainPass tools c.plans { w with disk := c.opened }).2.disk.AgreesOn (fun _ => True)
        c.main.pool.world.disk := by
  obtain ⟨s, -, hplanning, -⟩ := exists_sources_of_prepare c.prepare_eq
  rw [plans, hplanning] at hready hnamed
  have hconfluent :=
    (hready.neighbors hnamed).confluent (w := { w with disk := c.opened }) htools hdet
  rw [← hplanning] at hconfluent
  exact c.main.agrees hconfluent htools hdet (.refl _ _)

/-- The second pass comes to what its tasks come to in order, on a disk that holds the same. -/
theorem second_agrees (hapart : x.Untangled c.deferred c.main.pool.world.disk) {main : DrainReport}
    {merged : World σ} (hmain : c.main.pool.report.outcomes = main.outcomes)
    (hmerged : merged.disk.AgreesOn (fun _ => True) c.main.pool.world.disk) :
    c.second.pool.report.outcomes =
        (x.overridePass tools (deferredOf c.plans (writtenBy main)) merged).1.outcomes ∧
      (x.overridePass tools (deferredOf c.plans (writtenBy main)) merged).2.disk.AgreesOn
        (fun _ => True) c.second.pool.world.disk := by
  -- the tasks are the same
  have hdeferred : deferredOf c.plans (writtenBy main) = c.deferred := by
    rw [deferred, writtenBy, ← hmain, ← writtenBy]
  have hmasks : x.hasMask merged.disk = x.hasMask c.main.pool.world.disk :=
    funext fun o => (hasMask_agrees hmerged o).symm
  rw [overridePass, hdeferred, hmasks]
  exact c.second.agrees (hapart.separate.confluent htools hdet) htools hdet hmerged

end Agreement

/-- **An extraction does not depend on its workers.**  If outputs may be produced in any order, no
merge of the second pass rewrites the mask of another one, and the tool goes by the files alone, then
any number of workers in both passes, whose steps mix in any way, come to the report that the tasks
come to one after the other, and leave the same files. -/
theorem run_eq (c : x.FinishedCourse tools rs w) (hready : x.IsReady c.plans c.opened)
    (hnamed : ∀ p ∈ c.plans, p.task.IsNamed)
    (hapart : x.Untangled c.deferred c.main.pool.world.disk) (htools : tools.Tidy)
    (hdet : tools.Deterministic) (hobserves : tools.Observes) :
    ∃ report progress w', x.run tools rs w = (.ok (report, progress), w') ∧
      { report with peak := c.report.peak } = c.report ∧ w'.disk.Matches c.final.disk := by
  obtain ⟨hmain, hmerged⟩ := main_agrees htools hdet hready hnamed
  obtain ⟨hsecond, hoverridden⟩ := second_agrees htools hdet hapart hmain hmerged
  generalize hpass : x.mainPass tools c.plans { w with disk := c.opened } = pass at *
  obtain ⟨main, merged⟩ := pass
  generalize hpass' : x.overridePass tools (deferredOf c.plans (writtenBy main)) merged = pass at *
  obtain ⟨second, overridden⟩ := pass
  -- the same is wrong, and it is mended in the same way
  have htroubles : x.troubles c.prepared c.main.pool.report c.main.pool.world.disk
      c.second.pool.report = x.troubles c.prepared main merged.disk second :=
    troubles_agrees hmerged c.prepared hmain hsecond
  obtain ⟨hreconciled, hfinal⟩ := Reconciliation.reconcile_agrees htools hobserves hdet hoverridden
    x.outputDir (x.troubles c.prepared main merged.disk second)
  rw [← htroubles, c.reconcile_eq, htroubles] at hreconciled hfinal
  generalize hreconcile : reconcile tools x.outputDir (x.troubles c.prepared main merged.disk second)
    overridden = result at hreconciled hfinal
  obtain ⟨result, final⟩ := result
  obtain rfl : Except.ok c.reconciled = result := hreconciled
  have hwritten : writtenBy main = writtenBy c.main.pool.report := by
    rw [writtenBy, ← hmain, ← writtenBy]
  let c' : x.Course tools rs w := ⟨c.prepared, c.opened, c.prepare_eq, main, merged, hpass, second,
    overridden, hpass', c.reconciled, final, hreconcile, c.hasDeadline, hwritten ▸ c.canOverride⟩
  refine ⟨c'.report, c'.progress, c'.final, c'.run_eq, ?_, Disk.matches_iff_agreesOn.mpr hfinal⟩
  simp only [Course.report, report, Course.diagnostics, c', htroubles, hmain, hsecond,
    DrainReport.written, DrainReport.cached, DrainReport.failed, Reconciliation.unreferenced,
    Reconciliation.outputsIn_agrees hfinal]

end FinishedCourse

end Extraction

end CharacterArt
