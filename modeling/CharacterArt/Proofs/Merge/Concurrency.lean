import CharacterArt.Proofs.Merge.Outcomes

/-!
# Concurrency of pools

How many workers run a task at once.  A worker counts itself in before its task and out after it,
and no other worker waits for that, so the number has to be tied to what every worker is at.

## Main Definitions

* `State.Counted` — the number that is kept is the number of workers that run a task
* `State.counts` — how many workers counted as running whenever one of them started

## Main Results

* `State.counted_step` — every event keeps the number of workers that run a task
* `State.peak_step` — what an event does to the greatest such number
* `State.inFlight_of_run` — the number that is kept is the number of workers that run a task; it and
  its greatest value stay within the number of workers
-/

namespace CharacterArt.MergePool.State

section Runs

variable {σ : Type} {tools : Toolchain σ} {o : MergeOptions} {s s' : State σ} {workers : Nat}
  {w : World σ} {history : List Event} {e : Event}

/-! ### Workers that run a task -/

/-- The number that is kept is the number of workers that run a task. -/
def Counted (s : State σ) : Prop :=
  s.inFlight = s.workers.countP Worker.isRunning

/-- A worker that runs a task is counted. -/
theorem inFlight_pos (hcounted : s.Counted) {i : Nat} {v : Worker σ}
    (hworker : s.workers[i]? = some v) (hrunning : v.isRunning = true) : 0 < s.inFlight := by
  rw [hcounted, List.countP_pos_iff]
  exact ⟨v, List.mem_of_getElem? hworker, hrunning⟩

/-- A worker that does something else, with the number changed as it is counted in or out. -/
theorem counted_of_set {i : Nat} {old new : Worker σ} (hcounted : s.Counted)
    (hworker : s.workers[i]? = some old) (hworkers : s'.workers = s.workers.set i new)
    (hnumber : s'.inFlight + old.isRunning.toNat = s.inFlight + new.isRunning.toNat) :
    s'.Counted := by
  have hpos := inFlight_pos hcounted hworker
  obtain ⟨hi, rfl⟩ := List.getElem?_eq_some_iff.mp hworker
  rw [Counted] at hcounted
  rw [Counted, hworkers, List.countP_set hi, ← hcounted]
  cases hold : s.workers[i].isRunning with
  | true =>
      rw [hold, Bool.toNat_true] at hnumber
      have := hpos hold
      cases hnew : new.isRunning <;> simp [hnew] at hnumber ⊢ <;> omega
  | false =>
      rw [hold, Bool.toNat_false] at hnumber
      cases hnew : new.isRunning <;> simpa [hnew] using hnumber

/-- **The number of workers that run a task is kept by every event.** -/
theorem counted_step (hstep : s.step tools o e = some s') (h : s.Counted) : s'.Counted := by
  cases e with
  | submit i task =>
      obtain ⟨-, hworker, rfl⟩ := step_submit hstep
      exact counted_of_set h hworker rfl rfl
  | start i =>
      obtain ⟨n, task, hworker, rfl⟩ := step_start hstep
      exact counted_of_set h hworker rfl rfl
  | advance i =>
      obtain ⟨n, task, change, next, hworker, rfl⟩ := step_advance hstep
      exact counted_of_set h hworker rfl rfl
  | finish i =>
      obtain ⟨n, task, result, status, hworker, -, rfl⟩ := step_finish hstep
      -- a worker that counts itself out was counted in
      exact counted_of_set h hworker rfl (Nat.sub_add_cancel (inFlight_pos h hworker rfl))
  | report i =>
      obtain ⟨n, outcome, hworker, rfl⟩ := step_report hstep
      exact counted_of_set h hworker rfl rfl
  | exit i =>
      obtain ⟨-, hworker, rfl⟩ := step_exit hstep
      exact counted_of_set h hworker rfl rfl
  | drain =>
      obtain ⟨-, rfl⟩ := step_drain hstep
      exact h
  | receive =>
      obtain ⟨n, outcome, rest, -, -, rfl⟩ := step_receive hstep
      exact h
  | giveUp =>
      obtain ⟨-, -, rfl⟩ := step_giveUp hstep
      exact h
  | disconnect =>
      obtain ⟨-, -, -, rfl⟩ := step_disconnect hstep
      exact h
  | join =>
      obtain ⟨-, -, -, rfl⟩ := step_join hstep
      exact h

theorem counted_of_run (hrun : (start workers w).run tools o history = some s) : s.Counted := by
  refine run_induction (P := fun _ s => s.Counted) ?_ ?_ hrun
  · refine (List.countP_eq_zero.mpr fun v hv => ?_).symm
    rw [List.eq_of_mem_replicate hv]
    exact nofun
  · rintro _ _ _ _ - h hstep
    exact counted_step hstep h

/-- No more workers run a task than there are. -/
theorem inFlight_le (hrun : (start workers w).run tools o history = some s) :
    s.inFlight ≤ max workers 1 := by
  rw [counted_of_run hrun, ← (workers_of_run hrun).1]
  exact List.countP_le_length

/-- A worker that counts itself out was counted in. -/
theorem inFlight_finish (hrun : (start workers w).run tools o history = some s) {i : Nat}
    (hstep : s.step tools o (.finish i) = some s') : s'.inFlight + 1 = s.inFlight := by
  obtain ⟨n, task, result, status, hworker, -, rfl⟩ := step_finish hstep
  exact Nat.sub_add_cancel (inFlight_pos (counted_of_run hrun) hworker rfl)

/-! ### The greatest number -/

/-- How many workers count as running with the one that starts. -/
def count? (s : State σ) : Event → Option Nat
  | .start _ => some (s.inFlight + 1)
  | _ => none

/-- How many workers counted as running whenever one of them started, in order. -/
def counts (tools : Toolchain σ) (o : MergeOptions) (s : State σ) (history : List Event) :
    List Nat :=
  along tools o count? s history

/-- **The greatest number rises only as a worker starts, and to no more than the number then.** -/
theorem peak_step (hstep : s.step tools o e = some s') :
    s'.peak = (count? s e).toList.foldl max s.peak ∧ ∀ c ∈ count? s e, c = s'.inFlight := by
  cases e with
  | start i =>
      obtain ⟨n, task, -, rfl⟩ := step_start hstep
      exact ⟨rfl, fun c hc => (Option.some.inj hc).symm⟩
  | submit i task =>
      obtain ⟨-, -, rfl⟩ := step_submit hstep
      exact ⟨rfl, nofun⟩
  | advance i =>
      obtain ⟨n, task, change, next, -, rfl⟩ := step_advance hstep
      exact ⟨rfl, nofun⟩
  | finish i =>
      obtain ⟨n, task, result, status, -, -, rfl⟩ := step_finish hstep
      exact ⟨rfl, nofun⟩
  | report i =>
      obtain ⟨n, outcome, -, rfl⟩ := step_report hstep
      exact ⟨rfl, nofun⟩
  | exit i =>
      obtain ⟨-, -, rfl⟩ := step_exit hstep
      exact ⟨rfl, nofun⟩
  | drain =>
      obtain ⟨-, rfl⟩ := step_drain hstep
      exact ⟨rfl, nofun⟩
  | receive =>
      obtain ⟨n, outcome, rest, -, -, rfl⟩ := step_receive hstep
      exact ⟨rfl, nofun⟩
  | giveUp =>
      obtain ⟨-, -, rfl⟩ := step_giveUp hstep
      exact ⟨rfl, nofun⟩
  | disconnect =>
      obtain ⟨-, -, -, rfl⟩ := step_disconnect hstep
      exact ⟨rfl, nofun⟩
  | join =>
      obtain ⟨-, -, -, rfl⟩ := step_join hstep
      exact ⟨rfl, nofun⟩

/-- The greatest number is the greatest of those that were there as a worker started. -/
theorem peak_eq_max?_counts (hrun : (start workers w).run tools o history = some s) :
    s.peak = (counts tools o (start workers w) history).max?.getD 0 := by
  have hfold : s.peak = (counts tools o (start workers w) history).foldl max 0 := by
    refine run_induction (P := fun history s =>
      s.peak = (counts tools o (start workers w) history).foldl max 0) rfl ?_ hrun
    intro history t e t' hrun h hstep
    rw [(peak_step hstep).1, h, counts, counts, along_concat hrun hstep, List.foldl_append]
  rw [hfold, List.foldl_max, Nat.zero_max]

/-- A worker that starts is one of those that run a task then. -/
theorem counts_bounds (hrun : (start workers w).run tools o history = some s) :
    ∀ c ∈ counts tools o (start workers w) history, 1 ≤ c ∧ c ≤ max workers 1 := by
  refine run_induction (P := fun history _ =>
    ∀ c ∈ counts tools o (start workers w) history, 1 ≤ c ∧ c ≤ max workers 1) nofun ?_ hrun
  intro history t e t' hrun h hstep c hc
  rw [counts, along_concat hrun hstep, List.mem_append, Option.mem_toList] at hc
  rcases hc with hc | hc
  · exact h c hc
  · have hbound := inFlight_le (run_concat_eq_some.mpr ⟨t, hrun, hstep⟩)
    rw [← (peak_step hstep).2 c hc] at hbound
    refine ⟨?_, hbound⟩
    cases e with
    | start i =>
        cases hc
        exact Nat.le_add_left 1 _
    | _ => cases hc

/-- Every worker that started noted a number. -/
theorem exists_mem_counts (hrun : (start workers w).run tools o history = some s) {i : Nat}
    (hmem : .start i ∈ history) : ∃ c, c ∈ counts tools o (start workers w) history := by
  revert hmem
  refine run_induction (P := fun history _ => .start i ∈ history →
    ∃ c, c ∈ counts tools o (start workers w) history) nofun ?_ hrun
  intro history t e t' hrun h hstep hmem
  rw [counts, along_concat hrun hstep]
  rcases List.mem_append.mp hmem with hmem | hmem
  · obtain ⟨c, hc⟩ := h hmem
    exact ⟨c, List.mem_append_left _ hc⟩
  · cases List.mem_singleton.mp hmem
    exact ⟨_, List.mem_append_right _ (List.mem_singleton_self _)⟩

/-- Nobody runs a task once all outcomes are there. -/
theorem inFlight_eq_zero (hrun : (start workers w).run tools o history = some s)
    (hcount : s.submitted.length ≤ s.received.size) : s.inFlight = 0 := by
  have hnone := (outstanding_eq_nil_iff hrun).mpr hcount
  have hworkers := List.filterMap_eq_nil_iff.mp (List.append_eq_nil_iff.mp hnone).1
  rw [counted_of_run hrun, List.countP_eq_zero]
  intro v hv
  have hnumber := hworkers v hv
  cases v with
  | running n task work => cases hnumber
  | _ => exact nofun

/-- **A pool keeps within its workers.**  In every state that it can come to, however its tasks end
and in whatever order its workers act, the number that it keeps is that of the workers that run a
task.  A worker whose task ended in any way can count itself out, and the number is not zero when
one does.  The greatest number that is reported is the greatest of those that were there as a worker
started; each of these is at least one and at most the number of workers, so the bounds hold whoever
of them has noted its number yet.  Once all outcomes are there, the number is zero. -/
theorem inFlight_of_run (hrun : (start workers w).run tools o history = some s) :
    s.inFlight = s.workers.countP Worker.isRunning ∧ s.inFlight ≤ max workers 1 ∧
    (∀ (i n : Nat) task result status, s.workers[i]? = some (.running n task (.done result)) →
      TaskStatus.ofWork? result = some status → ∃ s', s.step tools o (.finish i) = some s') ∧
    (∀ (i : Nat) s', s.step tools o (.finish i) = some s' → s'.inFlight + 1 = s.inFlight) ∧
    s.report.peak = (counts tools o (start workers w) history).max?.getD 0 ∧
    (∀ c ∈ counts tools o (start workers w) history, 1 ≤ c ∧ c ≤ max workers 1) ∧
    s.report.peak ≤ max workers 1 ∧
    ((∃ i, .start i ∈ history) → 1 ≤ s.report.peak) ∧
    (s.submitted.length ≤ s.received.size → s.inFlight = 0) := by
  have hfinish : ∀ (i n : Nat) task result status,
      s.workers[i]? = some (.running n task (.done result)) →
      TaskStatus.ofWork? result = some status → ∃ s', s.step tools o (.finish i) = some s' := by
    intro i n task result status hworker hstatus
    simp only [step, hworker, hstatus, Option.map_some]
    exact ⟨_, rfl⟩
  have hpeak : s.report.peak = (counts tools o (start workers w) history).max?.getD 0 :=
    peak_eq_max?_counts hrun
  have hbounds := counts_bounds hrun
  refine ⟨counted_of_run hrun, inFlight_le hrun, hfinish, fun i s' => inFlight_finish hrun, hpeak,
    hbounds, ?_, ?_, inFlight_eq_zero hrun⟩
  · rw [hpeak]
    cases hmax : (counts tools o (start workers w) history).max? with
    | none => exact Nat.zero_le _
    | some c => exact (hbounds c (List.max?_mem hmax)).2
  · rintro ⟨i, hstart⟩
    obtain ⟨c, hc⟩ := exists_mem_counts hrun hstart
    obtain ⟨greatest, hmax⟩ := Option.isSome_iff_exists.mp (List.isSome_max?_of_mem hc)
    rw [hpeak, hmax]
    exact (hbounds greatest (List.max?_mem hmax)).1

end Runs

/-- A good and a broken task at once, up to their outcomes. -/
def Mixed.settled : List Event :=
  Mixed.history.take 18 ++ [.drain, .advance 0, .receive, .finish 0, .report 0, .receive]

open Mixed in
theorem inFlight_of_run_mixed :
    (∃ s, pool.run tools options history = some s ∧
      s.workers.countP Worker.isRunning = 1 ∧ s.inFlight = 1 ∧ s.report.peak = 2) ∧
    ∃ s, pool.run tools options settled = some s ∧
      s.submitted.length = 2 ∧ s.inFlight = 0 ∧ s.report.peak = 2 := by
  have hmixed : counts tools options pool history = [1, 2, 2] ∧
      (pool.run tools options history).map (fun s => s.workers.countP Worker.isRunning) =
        some 1 := by
    decide +kernel
  have hsettled : counts tools options pool settled = [1, 2] ∧
      (pool.run tools options settled).map (fun s => (s.submitted.length, s.received.size)) =
        some (2, 2) := by
    decide +kernel
  obtain ⟨s, hrun, hrunning⟩ := Option.map_eq_some_iff.mp hmixed.2
  obtain ⟨t, hrun', hreceived⟩ := Option.map_eq_some_iff.mp hsettled.2
  obtain ⟨hlength, hsize⟩ := Prod.mk.inj hreceived
  obtain ⟨hinFlight, -, -, -, hpeak, -⟩ := inFlight_of_run hrun
  obtain ⟨-, -, -, -, hpeak', -, -, -, hzero⟩ := inFlight_of_run hrun'
  rw [← pool, hmixed.1] at hpeak
  rw [← pool, hsettled.1] at hpeak'
  exact ⟨⟨s, hrun, hrunning, hinFlight.trans hrunning, hpeak⟩,
    ⟨t, hrun', hlength, hzero (Nat.le_of_eq (hlength.trans hsize.symm)), hpeak'⟩⟩

end CharacterArt.MergePool.State
