import CharacterArt.Proofs.Merge.Ends
import CharacterArt.Proofs.Merge.InOrder
import CharacterArt.Toolchain.Rehearsal

/-!
# A task is all or nothing

A task has many steps that can fail, and its tool may break off at any of its calls.  All of them but
the last one keep to the scratch directory, and the last one is a copy that is done or not.  So a task
that fails has made directories at most, and one that ends well has written its output and nothing
else.

## Main Definitions

* `MergeTask.Leaves` — what a task leaves behind, by how it ended

## Main Results

* `Toolchain.tidy_rehearsed`, `Toolchain.stopsOnly_rehearsed` — a tool whose calls go wrong
* `MergeTask.evolves_of_job_error` — a task that fails
* `MergePool.runTask_allOrNothing` — every task has an outcome, and what it leaves behind
-/

namespace CharacterArt

/-- An error is not a stall. -/
theorem Stop.failed_ne_stalled (e : Error) : Stop.failed e ≠ .stalled := by
  intro h
  cases h

/-! ### Tools whose calls go wrong -/

section Rehearsed

open Rehearsal

variable {α : Type} {f : Faults} {e : Entry} {c : Call Calls α}

/-- A call that is recorded goes wrong before it changes a file, or it is made. -/
theorem Rehearsal.recorded_cases (f : Faults) (e : Entry) (c : Call Calls α) (w : World Calls) :
    (∃ stop, f.at? e.method (count w.tools e.method) = some stop ∧
      recorded f e c w = (.error stop, { w with tools := w.tools ++ [e] })) ∨
    recorded f e c w = c { w with tools := w.tools ++ [e] } := by
  unfold recorded
  dsimp only
  split
  · next stop hstop => exact .inl ⟨stop, hstop, rfl⟩
  · exact .inr rfl

theorem Call.StaysBeside.recorded {path : String} (hc : c.StaysBeside path) (f : Faults)
    (e : Entry) : Call.StaysBeside (recorded f e c) path := by
  intro w
  rcases recorded_cases f e c w with ⟨stop, -, hstop⟩ | hmade
  · rw [hstop]
    exact Disk.Evolves.refl _ _
  · rw [hmade]
    exact hc { w with tools := w.tools ++ [e] }

/-- **A tool whose calls go wrong is tidy.** -/
theorem Toolchain.tidy_rehearsed (f : Faults) (canQuantize : Bool) :
    (Toolchain.rehearsed f canQuantize).Tidy where
  probe image w := by
    rcases recorded_cases f (.probe image) (inProcess.probe image) w with ⟨stop, -, hstop⟩ | hmade
    · exact congrArg (fun r => (Prod.snd r).disk) hstop
    · refine (congrArg (fun r => (Prod.snd r).disk) hmade).trans ?_
      exact (tidy_inProcess Calls).probe image _
  resize source width height target :=
    ((tidy_inProcess Calls).resize source width height target).recorded f _
  copyAlpha base mask target := ((tidy_inProcess Calls).copyAlpha base mask target).recorded f _
  quantize image := ((tidy_inProcess Calls).quantize image).recorded f _

/-- The tool that works in process is stopped by errors. -/
theorem Toolchain.stopsOnly_inProcess {P : Stop → Prop} (hP : ∀ e, P (.failed e)) (σ : Type) :
    (Toolchain.inProcess : Toolchain σ).StopsOnly P := by
  have hwriting : ∀ f : Files → Except Error Files,
      (InProcess.writing f : Call σ Unit).StopsOnly P := by
    intro f w stop h
    unfold InProcess.writing at h
    split at h
    · cases h
    · next e _ =>
        cases h
        exact hP e
  exact ⟨fun _ _ _ _ => hwriting _, fun _ _ _ => hwriting _, fun _ => hwriting _⟩

theorem Call.StopsOnly.recorded {P : Stop → Prop} (hc : c.StopsOnly P)
    (hf : ∀ m n stop, f.at? m n = some stop → P stop) (e : Entry) :
    Call.StopsOnly P (recorded f e c) := by
  intro w stop h
  rcases recorded_cases f e c w with ⟨stop', hat, hstop⟩ | hmade
  · rw [hstop] at h
    cases h
    exact hf _ _ stop hat
  · rw [hmade] at h
    exact hc _ stop h

/-- **A tool whose calls go wrong is stopped by what goes wrong.** -/
theorem Toolchain.stopsOnly_rehearsed {P : Stop → Prop} (hP : ∀ e, P (.failed e))
    (hf : ∀ m n stop, f.at? m n = some stop → P stop) (canQuantize : Bool) :
    (Toolchain.rehearsed f canQuantize).StopsOnly P where
  resize source width height target :=
    ((stopsOnly_inProcess hP Calls).resize source width height target).recorded hf _
  copyAlpha base mask target :=
    ((stopsOnly_inProcess hP Calls).copyAlpha base mask target).recorded hf _
  quantize image := ((stopsOnly_inProcess hP Calls).quantize image).recorded hf _

/-- Without calls that stall a call goes wrong in another way. -/
theorem Rehearsal.ne_stalled_of_at? (hf : ∀ m, f.stall m = []) (m : Method) (n : Nat) (stop : Stop)
    (h : f.at? m n = some stop) : stop ≠ .stalled := by
  unfold Faults.at? at h
  rw [hf] at h
  simp only [List.contains_nil, Bool.false_eq_true, if_false] at h
  split at h
  · cases h
    exact nofun
  · split at h
    · cases h
      exact nofun
    · cases h

end Rehearsed

/-! ### Tasks that fail -/

namespace MergeTask

variable {σ : Type} {tools : Toolchain σ} {o : MergeOptions} {scratch : String} {t : MergeTask}
  {w w' : World σ}

/-- **A task that fails makes directories at most.** -/
theorem evolves_of_job_error (htools : tools.Tidy) (h : IsScratch scratch) {stop : Stop}
    (hlacks : w.disk.Lacks InScratch) (havoids : AvoidsScratch w.disk.cwd (t.target o))
    (hrun : (t.job tools o scratch).run.run w = (.error stop, w')) :
    w.disk.Evolves (making w.disk.cwd (· = t.target o)) w'.disk := by
  rcases job_steps hlacks havoids hrun with ⟨rfl, -⟩ | ⟨d, -, hmade, hlacks', -, hrun⟩
  · exact Disk.Evolves.refl _ _
  · rcases Work.withScratch_steps h hlacks' (fun _ hnone => absurd hnone id) hrun with
      ⟨rfl, -⟩ | ⟨made, middle, hscratch, hpublish, hrest⟩
    · exact hmade
    · -- nothing but the scratch directory changed after it was made, and it is gone
      have hfails : (t.publish tools o scratch).FailsWithin d.cwd
          (producingIn scratch d.cwd fun _ => False) :=
        failsWithin_publish htools h fun l hl => hl
      have hmiddle := hfails _ stop middle hscratch.cwd hpublish
      refine hmade.trans ((hrest hmiddle).2.1.mono (fun _ => id) ?_ ?_)
      · rintro l ⟨path, hnone, -⟩
        exact absurd hnone id
      · rintro l (⟨path, hnone, -⟩ | hway)
        · exact absurd hnone id
        · exact .inl (.inr (hmade.cwd ▸ hway))

/-! ### All outcomes -/

/-- What a task leaves behind: nothing, its output, or directories. -/
inductive Leaves (o : MergeOptions) (t : MergeTask) (w w' : World σ) : TaskStatus → Prop where
  | cached (hsame : w' = w) : Leaves o t w w' .cached
  | written (hfile : w'.disk.isFile (t.target o) = true)
      (hevolves : w.disk.Evolves (producing w.disk.cwd (· = t.target o)) w'.disk) :
      Leaves o t w w' .written
  | failed (reason : String)
      (hevolves : w.disk.Evolves (making w.disk.cwd (· = t.target o)) w'.disk) :
      Leaves o t w w' (.failed reason)

/-- **What a task leaves behind**, if it ends at all. -/
theorem leaves_of_run_job (htools : tools.Tidy) (h : IsScratch scratch)
    {result : Except Stop TaskStatus} {status : TaskStatus} (hlacks : w.disk.Lacks InScratch)
    (havoids : AvoidsScratch w.disk.cwd (t.target o))
    (hrun : (t.job tools o scratch).run.run w = (result, w'))
    (hstatus : TaskStatus.ofWork? result = some status) : Leaves o t w w' status := by
  cases result with
  | ok ended =>
      cases hstatus
      rcases status_of_run_job hrun with ⟨rfl, rfl, -⟩ | ⟨rfl, -⟩
      · exact .cached rfl
      · obtain ⟨hevolves, -, hok⟩ := job_cases htools h hlacks havoids hrun
        exact .written ((hok .written rfl).2 rfl) hevolves
  | error stop =>
      have hevolves := evolves_of_job_error htools h hlacks havoids hrun
      cases stop <;> cases hstatus <;> exact .failed _ hevolves

end MergeTask

namespace MergePool

variable {σ : Type} {tools : Toolchain σ} {o : MergeOptions} {t : MergeTask} {w : World σ}

open MergeTask

/-- A task whose output is there does nothing, whatever the tool, unless it is forced. -/
theorem runTask_of_present (tools : Toolchain σ) (number : Nat)
    (hpresent : w.disk.exists? (t.target o) = true ∧ o.force = false) :
    runTask tools o number t w = (some .cached, w) := by
  rw [runTask, run_job, hpresent.1, hpresent.2]
  rfl

/-- **A task is all or nothing.**  It has an outcome if no call of its tool stalls, and then its
scratch directory is gone.  It finds its output exactly if that is there and nothing is forced, and
then nothing is done with any tool.  If it is written its output alone has changed, and if it fails no
file has; directories may have been made. -/
theorem runTask_allOrNothing (htidy : tools.Tidy) (hends : tools.StopsOnly (· ≠ .stalled))
    (number : Nat) (hlacks : w.disk.Lacks InScratch)
    (havoids : AvoidsScratch w.disk.cwd (t.target o)) :
    ∃ status w', runTask tools o number t w = (some status, w') ∧ Leaves o t w w' status ∧
      w'.disk.Lacks InScratch ∧
      (status = .cached ↔ w.disk.exists? (t.target o) = true ∧ o.force = false) ∧
      (status = .cached → ∀ other : Toolchain σ, runTask other o number t w = (some .cached, w)) := by
  rcases hjob : (t.job tools o (scratchOf number)).run.run w with ⟨result, w'⟩
  have hrun : runTask tools o number t w = (TaskStatus.ofWork? result, w') := by
    rw [runTask, hjob]
  obtain ⟨status, hstatus⟩ : ∃ status, TaskStatus.ofWork? result = some status := by
    cases result with
    | ok status => exact ⟨status, rfl⟩
    | error stop =>
        have hne := stopsOnly_job Stop.failed_ne_stalled hends w stop w' hjob
        cases stop with
        | failed e => exact ⟨_, rfl⟩
        | broke message => exact ⟨_, rfl⟩
        | stalled => exact absurd rfl hne
  have hpresent : status = .cached ↔ w.disk.exists? (t.target o) = true ∧ o.force = false := by
    constructor
    · rintro rfl
      rw [eq_ok_of_ofWork? hstatus rfl] at hjob
      rcases status_of_run_job hjob with ⟨-, -, hthere⟩ | ⟨hwritten, -⟩
      · exact hthere
      · cases hwritten
    · intro hthere
      rw [runTask_of_present tools number hthere, hstatus] at hrun
      cases hrun
      rfl
  exact ⟨status, w', by rw [hrun, hstatus],
    leaves_of_run_job htidy (.merge number) hlacks havoids hjob hstatus,
    (job_cases htidy (.merge number) hlacks havoids hjob).2.1, hpresent,
    fun hcached other => runTask_of_present other number (hpresent.mp hcached)⟩

/-! ### A tool that explodes over an old output

The output of a task is there and is to be produced again, but the tool breaks off when it is asked to
join the picture and its mask. -/

namespace Exploding

def faults : Rehearsal.Faults where
  stop
    | .copyAlpha => [0]
    | _ => []

def options : MergeOptions := ⟨"/out", true, false⟩

def color : Asset := ⟨1, "hero", .texture, "art", "", .tabulate 1 1 fun _ _ => ⟨1, 2, 3, 255⟩⟩

def task : MergeTask := ⟨"a", "hero", color, some (.asset color), ["A/0"]⟩

/-- The disk with the old output. -/
def world : World Rehearsal.Calls where
  disk := { nodes := Std.TreeMap.ofList [(["out"], Node.directory), (["out", "a"], Node.directory),
    (["out", "a", "hero.png"], Node.file (Content.bytes [7]))] }
  tools := []

/-- All that is asked of the task, in one evaluation. -/
theorem evaluated_task :
    (runTask (.rehearsed faults true) options 0 task world).1 =
      some (.failed "merge task panicked: tool exploded") ∧
    (∀ e ∈ world.disk.nodes.toList, e.1.head? = some "tmp" → e.1 = ["tmp"]) ∧
    (∀ m ∈ Path.way (Path.start [] (task.target options))
      (Path.segments (task.target options).toList) ++ [Path.place [] (task.target options)],
        m.head? ≠ some "tmp") := by
  decide +kernel

end Exploding

open Exploding in
theorem runTask_allOrNothing_exploding :
    (Toolchain.rehearsed faults true).Tidy ∧
    (Toolchain.rehearsed faults true).StopsOnly (· ≠ .stalled) ∧
    world.disk.Lacks InScratch ∧ AvoidsScratch world.disk.cwd (task.target options) ∧
    ∃ w', runTask (.rehearsed faults true) options 0 task world =
        (some (.failed "merge task panicked: tool exploded"), w') ∧
      w'.disk.node? ["out", "a", "hero.png"] = some (.file (.bytes [7])) ∧
      w'.disk.Lacks InScratch := by
  obtain ⟨hstatus, hbare, haway⟩ := evaluated_task
  have htidy : (Toolchain.rehearsed faults true).Tidy := Toolchain.tidy_rehearsed faults true
  have hends : (Toolchain.rehearsed faults true).StopsOnly (· ≠ .stalled) :=
    Toolchain.stopsOnly_rehearsed Stop.failed_ne_stalled
      (Rehearsal.ne_stalled_of_at? fun _ => rfl) true
  have hlacks : world.disk.Lacks InScratch := lacks_inScratch_of_forall hbare
  have havoids : AvoidsScratch world.disk.cwd (task.target options) := avoidsScratch_of_forall haway
  obtain ⟨status, w', hrun, hleaves, hgone, -⟩ := runTask_allOrNothing htidy hends 0 hlacks havoids
  rw [hrun] at hstatus
  cases hstatus
  refine ⟨htidy, hends, hlacks, havoids, w', hrun, ?_, hgone⟩
  cases hleaves with
  | failed _ hevolves => exact (hevolves.file_iff id id).mpr rfl

end MergePool

end CharacterArt
