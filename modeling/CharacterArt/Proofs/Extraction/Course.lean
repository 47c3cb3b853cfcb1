import CharacterArt.Extraction
import CharacterArt.Proofs.Extraction.Plans
import CharacterArt.Proofs.Traversal

/-!
# The course of an extraction

An extraction that ends with a report goes through five phases: it prepares, merges what it planned,
merges the outputs whose masks are outputs, mends what lacks a mask, and puts the report together.
A course holds what is known after each phase, so that statements can speak of it.

## Main Definitions

* `Extraction.troubles` — what is wrong before anything is mended
* `Extraction.Course` — the phases of an extraction
* `Extraction.Course.report`, `Extraction.Course.progress` — its report, and how far it was when

## Main Results

* `Extraction.Course.run_eq`, `Extraction.exists_course` — an extraction that ends with a report has
  a course, and the other way round
* `Extraction.exists_sources_of_prepare` — what the plans are made from

## Design Notes

Both passes of a course do their tasks one after the other.  Where neither pass depends on the order,
`Extraction.FinishedCourse.run_eq` carries what is said of a course over to pools of any number of
workers, and what holds however the tasks end is said of an `Extraction.PooledCourse` at once.
-/

namespace CharacterArt

namespace Extraction

variable {σ : Type}

/-- What is wrong before anything is mended. -/
def troubles (x : Extraction) (p : Prepared) (main : DrainReport) (d : Files)
    (second : DrainReport) : Diagnostics :=
  p.resolution.diagnostics ++ p.planning.diagnostics ++
    ExtractionReport.failuresOf main.outcomes ++
    ((x.lackingAlpha d p.planning.toList main).map fun output =>
      ⟨.alphaNotFound, output, "no alpha mask candidate"⟩) ++
    x.missingMasks d (deferredOf p.planning.toList (writtenBy main)) ++ overrideFailures second

/-- The phases of an extraction that ends with a report. -/
structure Course (x : Extraction) (tools : Toolchain σ) (rs : Requirements) (w : World σ) where
  prepared : Prepared
  /-- The files when the first output is merged. -/
  opened : Files
  prepare_eq : x.prepare rs w.disk = (.ok prepared, opened)
  /-- The outcomes of the first pass. -/
  main : DrainReport
  merged : World σ
  main_eq : x.mainPass tools prepared.planning.toList { w with disk := opened } = (main, merged)
  /-- The outcomes of the pass that merges outputs with other outputs. -/
  second : DrainReport
  overridden : World σ
  second_eq : x.overridePass tools (deferredOf prepared.planning.toList (writtenBy main)) merged =
    (second, overridden)
  reconciled : ReconcileReport
  final : World σ
  reconcile_eq : reconcile tools x.outputDir (x.troubles prepared main merged.disk second)
    overridden = (.ok reconciled, final)
  hasDeadline : (x.config.deadline? x.cores x.now).isSome
  canOverride : x.canOverride (deferredOf prepared.planning.toList (writtenBy main)) = true

namespace Course

variable {x : Extraction} {tools : Toolchain σ} {rs : Requirements} {w : World σ}

/-- The outputs to produce. -/
def plans (c : x.Course tools rs w) : List Plan :=
  c.prepared.planning.toList

/-- The paths of the outputs. -/
def IsTarget (c : x.Course tools rs w) (path : String) : Prop :=
  ∃ p ∈ c.plans, p.task.target x.mergeOptions = path

/-- The outputs that were written and wait for another output. -/
def deferred (c : x.Course tools rs w) : List Deferred :=
  deferredOf c.plans (writtenBy c.main)

/-- What is wrong before anything is mended. -/
def diagnostics (c : x.Course tools rs w) : Diagnostics :=
  x.troubles c.prepared c.main c.merged.disk c.second

/-- The report at the end. -/
def report (c : x.Course tools rs w) : ExtractionReport where
  images := ExtractionReport.imagesOf c.main.outcomes
  sync := c.prepared.sync
  bundlesDecoded := c.prepared.resolution.bundlesDecoded
  written := c.main.written
  cached := c.main.cached
  failed := c.main.failed + c.second.failed
  peak := max c.main.peak c.second.peak
  reconciled := c.reconciled
  diagnostics := withoutMended c.reconciled c.diagnostics ++
    Reconciliation.unreferenced c.final.disk x.outputDir
      ((ExtractionReport.imagesOf c.main.outcomes).toList.map Prod.snd)

/-- How far the extraction was at each event. -/
def progress (c : x.Course tools rs w) : List Progress :=
  ⟨.syncing, 0, 1, none⟩ :: c.prepared.resolution.progress ++ Planning.progressOf rs ++
    (c.main.progress ++ (if c.deferred.isEmpty then [] else
      ⟨.overriding, 0, c.deferred.length, none⟩ :: c.second.progress) ++
        [⟨.reconciling, 0, 1, none⟩, ⟨.complete, 1, 1, none⟩])

/-- The tasks of the first pass make the outputs. -/
theorem isTarget_of_mem_tasks (c : x.Course tools rs w) :
    ∀ t ∈ c.plans.map Plan.task, c.IsTarget (t.target x.mergeOptions) := by
  intro t ht
  obtain ⟨p, hp, rfl⟩ := List.mem_map.mp ht
  exact ⟨p, hp, rfl⟩

/-- **A course is that of an extraction.** -/
theorem run_eq (c : x.Course tools rs w) :
    x.run tools rs w = (.ok (c.report, c.progress), c.final) := by
  obtain ⟨deadline, hdeadline⟩ := Option.isSome_iff_exists.mp c.hasDeadline
  unfold run
  rw [c.prepare_eq]
  dsimp only
  unfold carryOut
  rw [c.main_eq]
  dsimp only
  rw [hdeadline]
  dsimp only
  unfold afterMainPass
  dsimp only
  rw [c.second_eq]
  dsimp only
  rw [c.canOverride, Bool.not_true, if_neg Bool.false_ne_true]
  have hreconcile := c.reconcile_eq
  unfold troubles at hreconcile
  rw [hreconcile]
  rfl

/-- Courses with different tools that are equal in all that is reported are courses of equal runs. -/
theorem run_congr {other : Toolchain σ} (c : x.Course tools rs w) (c' : x.Course other rs w)
    (hprepared : c'.prepared = c.prepared) (hmain : c'.main = c.main) (hsecond : c'.second = c.second)
    (hreconciled : c'.reconciled = c.reconciled) (hmerged : c'.merged = c.merged)
    (hfinal : c'.final = c.final) : x.run other rs w = x.run tools rs w := by
  have hdiagnostics : c'.diagnostics = c.diagnostics := by
    rw [diagnostics, hprepared, hmain, hmerged, hsecond, diagnostics]
  have hdeferred : c'.deferred = c.deferred := by
    rw [deferred, plans, hprepared, hmain, deferred, plans]
  have hreport : c'.report = c.report := by
    rw [report, hdiagnostics, hprepared, hmain, hsecond, hreconciled, hfinal, report]
  have hprogress : c'.progress = c.progress := by
    rw [progress, hprepared, hmain, hsecond, hdeferred, progress]
  rw [c.run_eq, c'.run_eq, hreport, hprogress, hfinal]

/-- What is found by preparing is found of a course. -/
theorem prepared_of_any (c : x.Course tools rs w) {P : Prepared → Bool}
    (h : (x.prepare rs w.disk).1.toOption.any P = true) : P c.prepared = true := by
  rw [c.prepare_eq] at h
  exact h

end Course

/-- **An extraction that ends with a report has a course.** -/
theorem exists_course {x : Extraction} {tools : Toolchain σ} {rs : Requirements} {w w' : World σ}
    {report : ExtractionReport} {progress : List Progress}
    (h : x.run tools rs w = (.ok (report, progress), w')) :
    ∃ c : x.Course tools rs w, c.report = report ∧ c.final = w' := by
  unfold run at h
  match hprepare : x.prepare rs w.disk with
  | (.error e, d) =>
      rw [hprepare] at h
      cases h
  | (.ok prepared, opened) =>
      rw [hprepare] at h
      unfold carryOut at h
      match hmain : x.mainPass tools prepared.planning.toList { w with disk := opened } with
      | (main, merged) =>
          simp only [hmain] at h
          cases hdeadline : x.config.deadline? x.cores x.now with
          | none =>
              rw [hdeadline] at h
              cases h
          | some deadline =>
              rw [hdeadline] at h
              unfold afterMainPass at h
              match hsecond : x.overridePass tools
                  (deferredOf prepared.planning.toList (writtenBy main)) merged with
              | (second, overridden) =>
                  simp only [hsecond] at h
                  cases hoverride : x.canOverride
                      (deferredOf prepared.planning.toList (writtenBy main)) with
                  | false =>
                      rw [hoverride] at h
                      cases h
                  | true =>
                      rw [hoverride, Bool.not_true, if_neg Bool.false_ne_true] at h
                      match hreconcile : reconcile tools x.outputDir
                          (x.troubles prepared main merged.disk second) overridden with
                      | (.error stop, final) =>
                          rw [troubles] at hreconcile
                          rw [hreconcile] at h
                          cases h
                      | (.ok reconciled, final) =>
                          let c : x.Course tools rs w := ⟨prepared, opened, hprepare, main, merged,
                            hmain, second, overridden, hsecond, reconciled, final, hreconcile,
                            Option.isSome_iff_exists.mpr ⟨deadline, hdeadline⟩, hoverride⟩
                          rw [troubles] at hreconcile
                          rw [hreconcile] at h
                          cases h
                          exact ⟨c, rfl, rfl⟩

/-- A report that is found by running an extraction is that of a course. -/
theorem exists_course_of_any {x : Extraction} {tools : Toolchain σ} {rs : Requirements} {w : World σ}
    {P : ExtractionReport → Bool}
    (h : (x.run tools rs w).1.toOption.any (fun r => P r.1) = true) :
    ∃ c : x.Course tools rs w, P c.report = true := by
  match hrun : x.run tools rs w with
  | (.error stop, w') =>
      rw [hrun] at h
      cases h
  | (.ok (report, progress), w') =>
      rw [hrun] at h
      obtain ⟨c, rfl, -⟩ := exists_course hrun
      exact ⟨c, h⟩

/-- What the plans of an extraction are made from. -/
theorem exists_sources_of_prepare {x : Extraction} {rs : Requirements} {d opened : Files}
    {p : Prepared} (h : x.prepare rs d = (.ok p, opened)) :
    ∃ s : Sources, s.images = p.resolution.images ∧ p.planning = Planning.ofRequirements s rs ∧
      s.nameKeys = x.config.nameKeys ∧ ∃ images, p.resolution.diagnostics =
        Resolution.invalidIds rs ++ Resolution.gaps images rs := by
  unfold prepare at h
  split at h
  · cases h
  · next store corpus stats d' hsync =>
      obtain ⟨⟨resolution, planning⟩, hplanned, rfl⟩ := map_eq_ok_iff.mp (Prod.mk.inj h).1
      unfold planOutputs at hplanned
      obtain ⟨found, hresolve, hplanned⟩ := bind_eq_ok_iff.mp hplanned
      obtain ⟨overrides, -, hplanned⟩ := bind_eq_ok_iff.mp hplanned
      obtain ⟨records, -, hplanned⟩ := bind_eq_ok_iff.mp hplanned
      cases hplanned
      refine ⟨_, rfl, rfl, rfl, resolution.images, ?_⟩
      unfold resolve at hresolve
      obtain ⟨names, -, hresolve⟩ := bind_eq_ok_iff.mp hresolve
      obtain ⟨parts, -, hresolve⟩ := bind_eq_ok_iff.mp hresolve
      obtain ⟨copies, -, hresolve⟩ := bind_eq_ok_iff.mp hresolve
      obtain ⟨images, -, hresolve⟩ := bind_eq_ok_iff.mp hresolve
      cases hresolve
      rfl

end Extraction

end CharacterArt
