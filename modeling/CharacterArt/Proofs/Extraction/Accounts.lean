import CharacterArt.Proofs.Bundle.Corpus
import CharacterArt.Proofs.Extraction.Missing
import CharacterArt.Proofs.Extraction.Preparation
import CharacterArt.Proofs.Merge.InOrder

/-!
# What a report accounts for

An output without transparency is merged with a mask, or the report names it.  It may lose its mask
in many ways: none is known, the object cannot be read, the output that serves as mask is missing, a
merge fails or does not end, no variant has alpha.  Each of them leaves a diagnostic.  The one
exception is an output that the extraction finds in its place: it is taken to be finished.

## Main Definitions

* `Extraction.Course.IsFound` — an output that was in its place already
* `Extraction.Course.IsMasked` — an output that was merged with a mask
* `Extraction.Course.Reports` — an output that the report names
* `Extraction.Course.StartsBare` — an extraction that starts without outputs

## Main Results

* `Extraction.Course.reports_of_not_isMasked` — an opaque output without a mask is reported
* `Extraction.Course.not_isFound_of_force`, `Extraction.Course.not_isFound_of_startsBare` — when no
  output is found
* `Extraction.Course.map_subject_eq_unresolved` — what is left of the missing masks
* `Extraction.run_accounted` — all of it about a run
-/

namespace CharacterArt

open Reconciliation (targets)

namespace Extraction

variable {σ : Type} {x : Extraction} {tools : Toolchain σ} {rs : Requirements} {w : World σ}

namespace Course

/-! ### The report -/

variable {c : x.Course tools rs w} {p : Plan}

/-- What the report keeps of a diagnostic. -/
theorem mem_report {d : Diagnostic} (hd : d ∈ c.diagnostics)
    (h : d.kind = .alphaNotFound → d.subject ∉ c.reconciled.resolved.map Prod.fst) :
    d ∈ c.report.diagnostics := by
  refine List.mem_append_left _ ?_
  rw [withoutMended, Diagnostics.takeWhere, List.partition_eq_filter_filter, List.mem_filter]
  refine ⟨hd, ?_⟩
  simp only [Function.comp_apply, Bool.not_eq_true', Bool.and_eq_false_imp, beq_iff_eq]
  intro hkind
  rw [← Bool.not_eq_true, List.contains_iff_mem]
  exact h hkind

/-- **The missing masks in the report are those of the outputs that were not mended.** -/
theorem map_subject_eq_unresolved (c : x.Course tools rs w) :
    (Diagnostics.ofKind c.report.diagnostics .alphaNotFound).map Diagnostic.subject =
      c.reconciled.unresolved := by
  have hstray : ∀ referenced, Diagnostics.ofKind
      (Reconciliation.unreferenced c.final.disk x.outputDir referenced) .alphaNotFound = [] := by
    intro referenced
    rw [Diagnostics.ofKind, List.filter_eq_nil_iff]
    intro d hd
    obtain ⟨o, -, rfl⟩ := List.mem_map.mp hd
    exact Bool.false_ne_true
  rw [unresolved_eq, targets, List.filter_map]
  unfold report
  rw [Diagnostics.ofKind, List.filter_append, ← Diagnostics.ofKind, ← Diagnostics.ofKind, hstray,
    List.append_nil, withoutMended, Diagnostics.takeWhere, List.partition_eq_filter_filter]
  refine congrArg _ ?_
  rw [Diagnostics.ofKind, Diagnostics.ofKind, List.filter_filter, List.filter_filter]
  refine List.filter_congr fun d _ => ?_
  cases hkind : d.kind == DiagnosticKind.alphaNotFound <;> simp [hkind]

/-! ### Opaque outputs -/

/-- The extraction found an output in its place. -/
def IsFound (c : x.Course tools rs w) (output : String) : Prop :=
  ∃ out ∈ c.main.outcomes, out.output = output ∧ out.status = .cached

/-- An output was merged with a mask: when it was made, when another output was ready to serve as
mask, or when it was mended. -/
def IsMasked (c : x.Course tools rs w) (output : String) : Prop :=
  (∃ p ∈ c.plans, p.task.outputPath = output ∧ p.task.mask.isSome ∧ output ∈ writtenBy c.main) ∨
    output ∈ writtenBy c.second ∨ output ∈ c.reconciled.resolved.map Prod.fst

/-- The report names an output whose mask is missing or whose task failed. -/
def Reports (c : x.Course tools rs w) (output : String) : Prop :=
  ∃ d ∈ c.report.diagnostics, (d.kind = .alphaNotFound ∨ d.kind = .taskFailed) ∧ d.subject = output

/-- A failure is reported. -/
theorem reports_of_taskFailed {output reason : String}
    (h : (⟨.taskFailed, output, reason⟩ : Diagnostic) ∈ c.diagnostics) : c.Reports output :=
  ⟨_, mem_report h nofun, .inr rfl, rfl⟩

/-- A missing mask is reported, or the output was mended. -/
theorem reports_of_alphaNotFound {output reason : String}
    (h : (⟨.alphaNotFound, output, reason⟩ : Diagnostic) ∈ c.diagnostics)
    (hnot : ¬ c.IsMasked output) : c.Reports output :=
  ⟨_, mem_report h fun _ hmended => hnot (.inr (.inr hmended)), .inl rfl, rfl⟩

/-- An output that was written and waits for another one gets its mask, or it is reported. -/
theorem reports_of_deferred {o : Deferred} (ho : o ∈ c.deferred)
    (hsolid : o.task.color.isTransparent = false) (hnot : ¬ c.IsMasked o.task.outputPath) :
    c.Reports o.task.outputPath := by
  by_cases hmask : x.hasMask c.merged.disk o = true
  · -- the merge in the second pass was written, or it did not end well
    have htask : x.deferredTask o ∈ (c.deferred.filter (x.hasMask c.merged.disk)).map x.deferredTask :=
      List.mem_map_of_mem (List.mem_filter.mpr ⟨ho, hmask⟩)
    obtain ⟨status, hout⟩ := MergePool.exists_outcome tools { x.mergeOptions with force := true }
      c.merged htask
    have hsecond : (MergePool.runInOrder tools { x.mergeOptions with force := true }
        ((c.deferred.filter (x.hasMask c.merged.disk)).map x.deferredTask) c.merged).1 = c.second :=
      congrArg Prod.fst c.second_eq
    rw [hsecond] at hout
    cases hstatus : status.getD .timedOut with
    | written =>
        exact absurd (.inr (.inl (mem_writtenBy.mpr ⟨_, hout, rfl, hstatus⟩))) hnot
    | cached =>
        rw [← hsecond] at hout
        exact absurd (MergePool.mem_runFrom_of_cached hout hstatus)
          (MergePool.ne_cached_of_force tools rfl 0 _ c.merged)
    | failed reason =>
        refine reports_of_taskFailed (List.mem_append_right _ (List.mem_map.mpr ⟨_,
          List.mem_filter.mpr ⟨hout, ?_⟩, rfl⟩))
        show (!(status.getD .timedOut).isSuccess) = true
        rw [hstatus]
        rfl
    | timedOut =>
        refine reports_of_taskFailed (List.mem_append_right _ (List.mem_map.mpr ⟨_,
          List.mem_filter.mpr ⟨hout, ?_⟩, rfl⟩))
        show (!(status.getD .timedOut).isSuccess) = true
        rw [hstatus]
        rfl
  · refine reports_of_alphaNotFound (List.mem_append_left _ (List.mem_append_right _
      (List.mem_map.mpr ⟨o, List.mem_filter.mpr ⟨ho, ?_⟩, rfl⟩))) hnot
    rw [Bool.not_eq_true] at hmask
    show (!x.hasMask c.merged.disk o && !o.task.color.isTransparent) = true
    rw [hmask, hsolid]
    rfl

/-- **An opaque output that was neither found nor merged with a mask is reported.** -/
theorem reports_of_not_isMasked (hp : p ∈ c.plans) (hsolid : p.task.color.isTransparent = false)
    (hfound : ¬ c.IsFound p.task.outputPath) (hmasked : ¬ c.IsMasked p.task.outputPath) :
    c.Reports p.task.outputPath := by
  have hmain : (MergePool.runInOrder tools x.mergeOptions (c.plans.map Plan.task)
      { w with disk := c.opened }).1 = c.main :=
    congrArg Prod.fst c.main_eq
  obtain ⟨status, hout⟩ := MergePool.exists_outcome tools x.mergeOptions
    { w with disk := c.opened } (List.mem_map_of_mem (f := Plan.task) hp)
  rw [hmain] at hout
  have hfailed : ∀ reason, ExtractionReport.failureOf? (MergePool.outcomeOf p.task status) =
      some ⟨.taskFailed, p.task.outputPath, reason⟩ → c.Reports p.task.outputPath := by
    intro reason hreason
    have hd : (⟨.taskFailed, p.task.outputPath, reason⟩ : Diagnostic) ∈ c.diagnostics := by
      refine List.mem_append_left _ (List.mem_append_left _ (List.mem_append_left _
        (List.mem_append_right _ ?_)))
      exact List.mem_filterMap.mpr ⟨_, hout, hreason⟩
    exact reports_of_taskFailed hd
  cases hstatus : status.getD .timedOut with
  | cached => exact absurd ⟨_, hout, rfl, hstatus⟩ hfound
  | failed reason =>
      refine hfailed reason ?_
      rw [ExtractionReport.failureOf?, MergePool.outcomeOf, hstatus]
  | timedOut =>
      refine hfailed "timed out waiting for merge" ?_
      rw [ExtractionReport.failureOf?, MergePool.outcomeOf, hstatus]
  | written =>
      have hwritten : p.task.outputPath ∈ writtenBy c.main :=
        mem_writtenBy.mpr ⟨_, hout, rfl, hstatus⟩
      obtain ⟨s, -, hfor⟩ := isFor hp
      cases hfor.decided with
      | masked hmask _ _ =>
          obtain ⟨mask, hmask⟩ := hmask
          have hsome : p.task.mask.isSome = true := by
            rw [hmask]
            rfl
          exact absurd (.inl ⟨p, hp, rfl, hsome, hwritten⟩) hmasked
      | waiting _ _ hdeferred =>
          obtain ⟨mask, hmask⟩ := Option.isSome_iff_exists.mp hdeferred
          have hd : (⟨p.task, mask⟩ : Deferred) ∈ c.deferred :=
            mem_deferredOf.mpr ⟨p, hp, hwritten, hmask, rfl⟩
          exact reports_of_deferred (o := ⟨p.task, mask⟩) hd hsolid hmasked
      | plain _ hneeds _ =>
          rw [hsolid] at hneeds
          have hlacks : p.task.outputPath ∈ x.lackingAlpha c.merged.disk c.plans c.main :=
            mem_lackingAlpha.mpr ⟨⟨p, hp, hneeds, rfl⟩, .inl hwritten⟩
          refine reports_of_alphaNotFound (List.mem_append_left _ (List.mem_append_left _
            (List.mem_append_right _ (List.mem_map.mpr ⟨_, hlacks, rfl⟩)))) hmasked

/-! ### Outputs that are found -/

/-- If merging is forced, no output is found. -/
theorem not_isFound_of_force (hforce : x.config.force = true) (output : String) :
    ¬ c.IsFound output := by
  rintro ⟨out, hout, -, hcached⟩
  have hmain : (MergePool.runInOrder tools x.mergeOptions (c.plans.map Plan.task)
      { w with disk := c.opened }).1 = c.main :=
    congrArg Prod.fst c.main_eq
  rw [← hmain] at hout
  exact MergePool.ne_cached_of_force tools hforce 0 _ _ (MergePool.mem_runFrom_of_cached hout hcached)

/-- An extraction starts without outputs: the directory of outputs is empty, and neither the index
nor the way to that directory puts anything in the place of an output.  The tool keeps to the files
that it is told to write, and the scratch directories are new and lie elsewhere. -/
structure StartsBare (c : x.Course tools rs w) : Prop where
  isNamed : c.IsNamed
  tidy : tools.Tidy
  empty : ∀ l, Path.place w.disk.cwd x.outputDir <+: l → l ≠ Path.place w.disk.cwd x.outputDir →
    w.disk.node? l = none
  not_index : ∀ p ∈ c.plans, ¬ (Index.opening x.indexPath w.disk.cwd).files (x.placeOf w.disk.cwd p)
  not_above_index : ∀ p ∈ c.plans, ¬ (Index.opening x.indexPath w.disk.cwd).ways (x.placeOf w.disk.cwd p)
  not_above_root : ∀ p ∈ c.plans, ¬ Path.Passes w.disk.cwd x.outputDir (x.placeOf w.disk.cwd p)
  scratch : c.opened.Lacks InScratch
  avoids : ∀ p ∈ c.plans, AvoidsScratch w.disk.cwd (p.task.target x.mergeOptions)

/-- **An extraction that starts without outputs finds none.** -/
theorem not_isFound_of_startsBare (h : c.StartsBare) (output : String) : ¬ c.IsFound output := by
  rintro ⟨out, hout, -, hcached⟩
  have hmain : (MergePool.runInOrder tools x.mergeOptions (c.plans.map Plan.task)
      { w with disk := c.opened }).1 = c.main :=
    congrArg Prod.fst c.main_eq
  rw [← hmain] at hout
  have hprepare := evolves_prepare c.prepare_eq
  have hplace : ∀ p ∈ c.plans, x.placeOf w.disk.cwd p = Path.place w.disk.cwd x.outputDir ++ p.task.names :=
    fun p hp => MergeTask.place_target (h.isNamed.task hp) _ _
  refine MergePool.ne_cached_of_bare (w := { w with disk := c.opened }) h.tidy
    c.isTarget_of_mem_tasks (avoids_opened h.avoids) h.scratch ?_ ?_ ?_
    (MergePool.mem_runFrom_of_cached hout hcached)
  · -- nothing was there at first, and preparing puts nothing there
    intro t ht
    obtain ⟨p, hp, rfl⟩ := List.mem_map.mp ht
    show c.opened.node? (Path.place c.opened.cwd _) = none
    rw [c.cwd_opened]
    have hnone : w.disk.Lacks (· = x.placeOf w.disk.cwd p) := by
      rintro l rfl
      refine h.empty _ ?_ ?_
      · rw [hplace p hp]
        exact List.prefix_append _ _
      · rw [hplace p hp]
        exact fun heq => p.task.names_ne_nil (List.append_right_eq_self.mp heq)
    exact hprepare.lacks hnone (fun _ _ => id) (by rintro l rfl; exact h.not_index p hp)
      (by rintro l rfl; exact h.not_above_index p hp) _ rfl
  · show List.Pairwise (fun t u => Path.place c.opened.cwd _ ≠ Path.place c.opened.cwd _) _
    rw [c.cwd_opened, List.pairwise_map]
    have hapart := List.pairwise_map.mp c.nodup_outputs
    refine hapart.imp_of_mem fun hp hq hne heq => hne ?_
    exact MergeTask.outputPath_eq_of_place (h.isNamed.task hp) (h.isNamed.task hq) heq
  · intro t ht
    obtain ⟨p, hp, rfl⟩ := List.mem_map.mp ht
    show ¬ (producing c.opened.cwd _).ways (Path.place c.opened.cwd _)
    rw [c.cwd_opened]
    rintro (⟨path, ⟨q, hq, rfl⟩, hway⟩ | ⟨scratch, hscratch, hway⟩)
    · have hroot := MergeTask.passes_of_passes_target (h.isNamed.task hp) (h.isNamed.task hq) hway
      exact h.not_above_root p hp hroot
    · -- the way to a scratch directory is shorter than the way to an output
      have hlength : 2 ≤ (x.placeOf w.disk.cwd p).length := by
        rw [hplace p hp, List.length_append]
        exact Nat.le_add_left _ _
      rcases hscratch.passes hway with heq | heq
      · rw [placeOf, heq] at hlength
        exact absurd hlength (by decide)
      · rw [placeOf, heq] at hlength
        exact absurd hlength (by decide)

end Course

/-- **An extraction accounts for its outputs.**  Every required image whose color was found is
planned, or a failure is reported under its path.  An opaque output that was not found in its place
was merged with a mask, or the report names it, and nothing is found if merging is forced or if the
extraction starts without outputs.  The missing masks that are left in the report are those of the
outputs that were not mended, each once, and none of an output that was. -/
theorem run_accounted {report : ExtractionReport} {progress : List Progress} {w' : World σ}
    (h : x.run tools rs w = (.ok (report, progress), w')) :
    ∃ c : x.Course tools rs w, c.report = report ∧ c.final = w' ∧
      (∀ r ∈ rs, ∀ color, c.prepared.resolution.images[r.colorId]? = some color →
        (∃ p ∈ c.plans, p.task.outputPath = r.outputDir ++ "/" ++ color.name ++ ".png") ∨
          c.Reports (r.outputDir ++ "/" ++ color.name ++ ".png")) ∧
      (∀ p ∈ c.plans, p.task.color.isTransparent = false → ¬ c.IsFound p.task.outputPath →
        ¬ c.IsMasked p.task.outputPath → c.Reports p.task.outputPath) ∧
      (x.config.force = true ∨ c.StartsBare → ∀ output, ¬ c.IsFound output) ∧
      (Diagnostics.ofKind report.diagnostics .alphaNotFound).map Diagnostic.subject =
        report.reconciled.unresolved ∧
      report.reconciled.unresolved.Nodup ∧
      ∀ output ∈ report.reconciled.unresolved, output ∉ report.reconciled.resolved.map Prod.fst := by
  obtain ⟨c, rfl, rfl⟩ := exists_course h
  have hunresolved : c.report.reconciled.unresolved = (targets c.diagnostics).filter fun output =>
      !(c.report.reconciled.resolved.map Prod.fst).contains output := c.unresolved_eq
  refine ⟨c, rfl, rfl, ?_, fun p => Course.reports_of_not_isMasked, ?_,
    c.map_subject_eq_unresolved, ?_, ?_⟩
  · intro r hr color hcolor
    obtain ⟨s, himages, hsound⟩ := c.exists_sound
    rw [← himages] at hcolor
    rcases hsound.covers r hr color hcolor with hplan | ⟨d, hd, hkind, hsubject⟩
    · obtain ⟨p, hp⟩ := Option.isSome_iff_exists.mp (Std.TreeMap.isSome_getElem?_iff_mem.mpr hplan)
      have hpath := (hsound.isFor hp).outputPath_eq
      exact .inl ⟨p, (Planning.mem_toList hsound).mpr (by rwa [hpath]), hpath⟩
    · obtain ⟨kind, subject, reason⟩ := d
      obtain rfl : kind = .taskFailed := hkind
      obtain rfl : subject = (s.taskOf r color).outputPath := hsubject
      replace hd : (⟨.taskFailed, (s.taskOf r color).outputPath, reason⟩ : Diagnostic) ∈
          c.diagnostics :=
        List.mem_append_left _ (List.mem_append_left _ (List.mem_append_left _
          (List.mem_append_left _ (List.mem_append_right _ hd))))
      exact .inr (Course.reports_of_taskFailed hd)
  · rintro (hforce | hbare) output
    · exact Course.not_isFound_of_force hforce output
    · exact Course.not_isFound_of_startsBare hbare output
  · rw [hunresolved]
    exact c.nodup_targets.filter _
  · intro output houtput
    rw [hunresolved, List.mem_filter, Bool.not_eq_true', ← Bool.not_eq_true,
      List.contains_iff_mem] at houtput
    exact houtput.2

/-! ### An index in the place of an output

Two textures of one opaque pixel, of which the first one has a mask.  The index lies beside the
directory of outputs or where an output goes. -/

namespace Sample

/-- A picture of one opaque pixel. -/
def pixel : Picture :=
  ⟨1, 1, #[⟨16, 32, 48, 255⟩], rfl⟩

def start : World Unit where
  disk := Corpus.diskWith "b" [("art.ab", [.ofPicture .texture 1 "hero" "" pixel,
    .ofPicture .texture 2 "hero_alpha" "" pixel, .ofPicture .texture 3 "foe" "" pixel])]
  tools := ()

def requirements (id : PathId) : Requirements :=
  [{ owner := "A", index := 0, colorId := id }]

def extraction (index : String) : Extraction where
  bundleDir := "/b"
  outputDir := "/images"
  config := { indexPath := some index }

/-- No file stands below the directory of outputs, nor does that directory. -/
theorem empty (l : Location) (h : ["images"] <+: l) : start.disk.node? l = none := by
  have hlacks : start.disk.Lacks (["images"] <+: ·) := by
    refine Disk.lacks_of_forall (by decide) ?_
    decide
  exact hlacks l h

theorem isNamed_owner (id : PathId) : ∀ r ∈ requirements id, Path.IsName r.owner := by
  intro r hr
  rw [List.mem_singleton.mp hr]
  show Path.IsName "A"
  decide

/-- All images have names that are single steps of paths. -/
def hasNames (p : Prepared) : Bool :=
  p.resolution.images.toList.all fun e => decide (Path.IsName e.2.name)

theorem isNamed_of_hasNames {index : String} {id : PathId} {w : World Unit}
    (c : (extraction index).Course Toolchain.inProcess (requirements id) w)
    (h : hasNames c.prepared = true) : c.IsNamed :=
  Course.isNamed_of_all (isNamed_owner id) h

/-! The third texture alone, with the index beside the directory of outputs -/

/-- The extraction of the third texture. -/
abbrev FoeCourse : Type :=
  (extraction "/index").Course Toolchain.inProcess (requirements 3) start

/-- All that is asked of the extraction, in one evaluation. -/
theorem evaluated_foe :
    ((extraction "/index").prepare (requirements 3) start.disk).1.toOption.any
      (fun p => hasNames p && (p.planning.toList.map fun plan =>
        (plan.task.target (extraction "/index").mergeOptions, plan.task.outputPath)) ==
          [("/images/a/foe.png", "a/foe.png")]) = true ∧
    (∀ e ∈ ((extraction "/index").prepare (requirements 3) start.disk).2.nodes.toList,
      e.1.head? = some "tmp" → e.1 = ["tmp"]) ∧
    ((extraction "/index").run Toolchain.inProcess (requirements 3) start).1.toOption.any
      (fun r => r.1.failed == 0 && r.1.reconciled == { unresolved := ["a/foe.png"] }) = true := by
  decide +kernel

section Foe

variable (c : FoeCourse)

theorem isNamed_foe : c.IsNamed := by
  have hprepared := c.prepared_of_any evaluated_foe.1
  rw [Bool.and_eq_true] at hprepared
  exact isNamed_of_hasNames c hprepared.1

theorem map_plans_foe : c.plans.map (fun p => (p.task.target (extraction "/index").mergeOptions,
    p.task.outputPath)) = [("/images/a/foe.png", "a/foe.png")] := by
  have hprepared := c.prepared_of_any evaluated_foe.1
  rw [Bool.and_eq_true, beq_iff_eq] at hprepared
  exact hprepared.2

theorem target_foe {p : Plan} (hp : p ∈ c.plans) :
    p.task.target (extraction "/index").mergeOptions = "/images/a/foe.png" := by
  have hmem := List.mem_map_of_mem (f := fun p : Plan =>
    (p.task.target (extraction "/index").mergeOptions, p.task.outputPath)) hp
  rw [map_plans_foe] at hmem
  exact congrArg Prod.fst (List.mem_singleton.mp hmem)

theorem exists_plan_foe : ∃ p ∈ c.plans, p.task.outputPath = "a/foe.png" := by
  have hmem : ("/images/a/foe.png", "a/foe.png") ∈ c.plans.map fun p =>
      (p.task.target (extraction "/index").mergeOptions, p.task.outputPath) := by
    rw [map_plans_foe]
    exact List.mem_singleton_self _
  obtain ⟨p, hp, heq⟩ := List.mem_map.mp hmem
  exact ⟨p, hp, congrArg Prod.snd heq⟩

theorem scratch_foe : c.opened.Lacks InScratch := by
  obtain ⟨-, hopened, -⟩ := evaluated_foe
  rw [c.prepare_eq] at hopened
  exact lacks_inScratch_of_forall hopened

theorem avoids_foe {p : Plan} (hp : p ∈ c.plans) :
    AvoidsScratch start.disk.cwd (p.task.target (extraction "/index").mergeOptions) := by
  rw [target_foe c hp]
  exact avoidsScratch_of_forall (by decide)

end Foe

end Sample

open Sample in
/-- An opaque output whose mask was found is left without it, and the report does not name it, if
the index lies in its place. -/
theorem exists_silent_output :
    (∀ l, ["images"] <+: l → start.disk.node? l = none) ∧
    ∃ c : (extraction "/images/a/hero.png").Course Toolchain.inProcess (requirements 1) start,
      c.IsNamed ∧ ∃ p ∈ c.plans, p.task.color.isTransparent = false ∧
        ¬ c.IsMasked p.task.outputPath ∧ ¬ c.Reports p.task.outputPath := by
  obtain ⟨hprepare, hrun⟩ :
      ((extraction "/images/a/hero.png").prepare (requirements 1) start.disk).1.toOption.any
        (fun p => hasNames p &&
          p.planning.toList.any fun plan => !plan.task.color.isTransparent) = true ∧
      ((extraction "/images/a/hero.png").run Toolchain.inProcess (requirements 1)
        start).1.toOption.any (fun r => r.1.written == 0 && r.1.diagnostics.isEmpty &&
          r.1.reconciled.resolved.isEmpty) = true := by
    decide +kernel
  obtain ⟨c, hquiet⟩ := exists_course_of_any (P := fun r => r.written == 0 &&
    r.diagnostics.isEmpty && r.reconciled.resolved.isEmpty) hrun
  have hprepared := c.prepared_of_any hprepare
  simp only [Bool.and_eq_true, beq_iff_eq, List.isEmpty_iff] at hquiet
  obtain ⟨⟨hwritten, hdiagnostics⟩, hresolved⟩ := hquiet
  rw [Bool.and_eq_true, List.any_eq_true] at hprepared
  obtain ⟨hnames, p, hp, hsolid⟩ := hprepared
  have hmain : writtenBy c.main = [] := by
    have hnone := List.countP_eq_zero.mp hwritten
    rw [writtenBy, List.filter_eq_nil_iff.mpr hnone, List.map_nil]
  have hsecond : writtenBy c.second = [] := by
    have hdeferred : deferredOf c.prepared.planning.toList (writtenBy c.main) = [] := by
      rw [hmain, deferredOf, List.filterMap_eq_nil_iff]
      intro q _
      rfl
    have heq := c.second_eq
    rw [hdeferred] at heq
    rw [← show _ = c.second from congrArg Prod.fst heq]
    rfl
  refine ⟨empty, c, isNamed_of_hasNames c hnames, p, hp, by simpa using hsolid, ?_, ?_⟩
  · rintro (⟨q, -, -, -, hwritten⟩ | hwritten | hmended)
    · rw [hmain] at hwritten
      exact absurd hwritten List.not_mem_nil
    · rw [hsecond] at hwritten
      exact absurd hwritten List.not_mem_nil
    · rw [show c.reconciled.resolved = [] from hresolved] at hmended
      exact absurd hmended List.not_mem_nil
  · rintro ⟨d, hd, -⟩
    rw [hdiagnostics] at hd
    exact absurd hd List.not_mem_nil

open Sample in
theorem run_accounted_bare :
    ∃ report progress w', (extraction "/index").run Toolchain.inProcess (requirements 3) start =
        (.ok (report, progress), w') ∧
      ∃ c : (extraction "/index").Course Toolchain.inProcess (requirements 3) start,
        c.report = report ∧ c.StartsBare ∧ (∀ output, ¬ c.IsFound output) ∧
        (∃ p ∈ c.plans, p.task.outputPath = "a/foe.png") ∧
        (Diagnostics.ofKind report.diagnostics .alphaNotFound).map Diagnostic.subject =
          ["a/foe.png"] := by
  obtain ⟨-, -, hrun⟩ := evaluated_foe
  obtain ⟨⟨report, progress⟩, hreport, hend⟩ := exists_eq_ok_of_any hrun
  have hresult : (extraction "/index").run Toolchain.inProcess (requirements 3) start =
      (.ok (report, progress), ((extraction "/index").run Toolchain.inProcess (requirements 3)
        start).2) := Prod.ext hreport rfl
  obtain ⟨c, hc, -, -, -, hfound, hsubjects, -⟩ := run_accounted hresult
  have hbare : c.StartsBare := {
    isNamed := isNamed_foe c
    tidy := Toolchain.tidy_inProcess Unit
    empty := fun l h _ => empty l h
    not_index := by
      intro p hp
      rw [placeOf, target_foe c hp]
      show ¬ Index.place? _ _ = some _
      decide
    not_above_index := by
      intro p hp
      rw [placeOf, target_foe c hp]
      show ¬ Path.Passes _ _ _
      decide
    not_above_root := by
      intro p hp
      rw [placeOf, target_foe c hp]
      decide
    scratch := scratch_foe c
    avoids := fun p => avoids_foe c }
  refine ⟨report, progress, _, hresult, c, hc, hbare, hfound (.inr hbare), exists_plan_foe c, ?_⟩
  rw [Bool.and_eq_true, beq_iff_eq, beq_iff_eq] at hend
  rw [hsubjects, hend.2]

end Extraction

end CharacterArt
