import CharacterArt.Proofs.Disk.Agreement
import CharacterArt.Proofs.Merge.InOrder
import CharacterArt.Proofs.Merge.Outcomes
import Mathlib.Logic.Function.Basic

/-!
# Schedules

Tasks in order and tasks in a pool have one thing in common: now and then some task does its next
step in the world as it is.  A schedule is no more than that, so what holds of all schedules holds
of every way to do the tasks.  In particular, if all schedules come to the same, then a pool leaves
what its tasks leave in order.

## Main Definitions

* `MergePool.Schedule` — what is left of each task, and the world, after steps of tasks
* `MergePool.Confluent` — all schedules come to the same results and leave the same files

## Main Results

* `MergePool.exists_schedule_runInOrder`, `MergePool.State.exists_schedule` — tasks in order, and pools
* `MergePool.Confluent.agrees_runInOrder` — a pool leaves what its tasks leave in order
-/

namespace CharacterArt.MergePool

variable {σ : Type} {tools : Toolchain σ} {o : MergeOptions} {tasks : List MergeTask}
  {w v : World σ} {left : Nat → Job (World σ) (Except Stop TaskStatus)} {m n : Nat}

/-- The work on the task with a given number, if there is one. -/
def fresh (tools : Toolchain σ) (o : MergeOptions) (tasks : List MergeTask) (n : Nat) :
    Job (World σ) (Except Stop TaskStatus) :=
  match tasks[n]? with
  | some t => (t.job tools o (scratchOf n)).run
  | none => .done (.error .stalled)

/-- What is left of each task, and the world, after some steps: each is the next step of some task,
in the world as it is then. -/
inductive Schedule (tools : Toolchain σ) (o : MergeOptions) (tasks : List MergeTask) (w : World σ) :
    (Nat → Job (World σ) (Except Stop TaskStatus)) → World σ → Prop where
  | start : Schedule tools o tasks w (fresh tools o tasks) w
  | step {left : Nat → Job (World σ) (Except Stop TaskStatus)} {v : World σ} {m : Nat}
      {change : World σ → World σ} {next : World σ → Job (World σ) (Except Stop TaskStatus)}
      (h : Schedule tools o tasks w left v) (hm : left m = .step change next) :
      Schedule tools o tasks w (Function.update left m (next v)) (change v)

theorem fresh_of_some {t : MergeTask} (ht : tasks[n]? = some t) :
    fresh tools o tasks n = (t.job tools o (scratchOf n)).run := by
  simp only [fresh, ht]

theorem fresh_of_none (hn : tasks[n]? = none) : fresh tools o tasks n = .done (.error .stalled) := by
  simp only [fresh, hn]

namespace Schedule

/-- Without a task there is nothing to do. -/
theorem left_of_none (h : Schedule tools o tasks w left v) (hn : tasks[n]? = none) :
    left n = .done (.error .stalled) := by
  induction h with
  | start => exact fresh_of_none hn
  | @step left v m change next h hm ih =>
      have hne : n ≠ m := by
        rintro rfl
        rw [ih] at hm
        cases hm
      rw [Function.update_of_ne hne, ih]

/-- A step is that of a task. -/
theorem exists_task {change : World σ → World σ}
    {next : World σ → Job (World σ) (Except Stop TaskStatus)} (h : Schedule tools o tasks w left v)
    (hm : left m = .step change next) : ∃ t, tasks[m]? = some t := by
  rw [← Option.ne_none_iff_exists']
  intro hnone
  rw [h.left_of_none hnone] at hm
  cases hm

/-- The rest of a task may be done all at once. -/
theorem finish (h : Schedule tools o tasks w left v) (m : Nat) :
    Schedule tools o tasks w (Function.update left m (.done ((left m).run v).1))
      ((left m).run v).2 := by
  generalize hj : left m = j
  induction j generalizing left v with
  | done a =>
      rw [show Function.update left m (.done ((Job.done a).run v).1) = left from
        Function.update_eq_self_iff.mpr hj.symm]
      exact h
  | step change next ih =>
      have hrest := ih v (h.step hj) (Function.update_self m (next v) left)
      rwa [Function.update_idem] at hrest

/-- **Tasks that are done in order from some place on are a schedule**, which leaves nothing to do. -/
theorem exists_runFrom {ts : List MergeTask} {k : Nat} (hts : tasks.drop k = ts)
    (h : Schedule tools o tasks w left v) (hdone : ∀ n < k, ∃ a, left n = .done a)
    (hfresh : ∀ n, k ≤ n → left n = fresh tools o tasks n) :
    ∃ result : Nat → Except Stop TaskStatus,
      Schedule tools o tasks w (fun n => .done (result n)) (runFrom tools o k ts v).2 ∧
      (∀ n < k, left n = .done (result n)) ∧
      (runFrom tools o k ts v).1 = ts.mapIdx fun i _ => TaskStatus.ofWork? (result (k + i)) := by
  induction ts generalizing k left v with
  | nil =>
      have hall : ∀ n, ∃ a, left n = .done a := by
        intro n
        by_cases hn : n < k
        · exact hdone n hn
        · have hlength := List.drop_eq_nil_iff.mp hts
          refine ⟨_, (hfresh n (Nat.le_of_not_lt hn)).trans (fresh_of_none ?_)⟩
          exact List.getElem?_eq_none (Nat.le_trans hlength (Nat.le_of_not_lt hn))
      choose result hresult using hall
      refine ⟨result, ?_, fun n _ => hresult n, rfl⟩
      rwa [← funext hresult]
  | cons t rest ih =>
      have ht : tasks[k]? = some t := by
        rw [← Nat.add_zero k, ← List.getElem?_drop, hts]
        rfl
      have hrest : tasks.drop (k + 1) = rest := by
        rw [← List.drop_drop, hts]
        rfl
      have hk : left k = (t.job tools o (scratchOf k)).run :=
        (hfresh k (Nat.le_refl k)).trans (fresh_of_some ht)
      have hfinish := h.finish k
      rw [hk] at hfinish
      obtain ⟨result, hschedule, hkept, hstatuses⟩ := ih hrest hfinish
        (fun n hn => by
          rcases Nat.lt_succ_iff_lt_or_eq.mp hn with hn | rfl
          · rw [Function.update_of_ne (Nat.ne_of_lt hn)]
            exact hdone n hn
          · exact ⟨_, Function.update_self _ _ _⟩)
        fun n hn => by
          rw [Function.update_of_ne (Nat.ne_of_gt hn), hfresh n (Nat.le_of_succ_le hn)]
      have hown : ((t.job tools o (scratchOf k)).run.run v).1 = result k := by
        have hk := hkept k (Nat.lt_succ_self k)
        rw [Function.update_self] at hk
        exact Job.done.inj hk
      rw [runFrom_cons]
      refine ⟨result, hschedule, fun n hn => ?_, ?_⟩
      · rw [← hkept n (Nat.lt_succ_of_lt hn), Function.update_of_ne (Nat.ne_of_lt hn)]
      · rw [List.mapIdx_cons, hown, hstatuses]
        simp only [Nat.add_zero, Nat.add_assoc, Nat.add_comm 1]

end Schedule

/-- **Tasks in order are a schedule** that leaves nothing to do, with the outcomes of its results. -/
theorem exists_schedule_runInOrder (tools : Toolchain σ) (o : MergeOptions) (tasks : List MergeTask)
    (w : World σ) : ∃ result : Nat → Except Stop TaskStatus,
      Schedule tools o tasks w (fun n => .done (result n)) (runInOrder tools o tasks w).2 ∧
      (runInOrder tools o tasks w).1.outcomes =
        tasks.mapIdx fun n t => outcomeOf t (TaskStatus.ofWork? (result n)) := by
  obtain ⟨result, hschedule, -, hstatuses⟩ := Schedule.exists_runFrom List.drop_zero
    (.start : Schedule tools o tasks w _ w) (fun n hn => absurd hn (Nat.not_lt_zero n))
    fun _ _ => rfl
  obtain ⟨houtcomes, hworld⟩ := runInOrder_eq tools o tasks w
  rw [houtcomes, hworld, hstatuses]
  refine ⟨result, hschedule, List.ext_getElem? fun n => ?_⟩
  rw [List.getElem?_zipWith, List.getElem?_mapIdx, List.getElem?_mapIdx]
  cases tasks[n]? with
  | none => rfl
  | some t =>
      rw [Nat.zero_add]
      rfl

/-! ### Pools -/

namespace State

variable {s : State σ} {workers : Nat} {history : List Event}

/-- **A pool is a schedule**, in which its tasks found the worlds that they found. -/
theorem schedule_of_run (hrun : (start workers w).run tools o history = some s)
    (hsubmitted : s.submitted <+: tasks) : Schedule tools o tasks w
      (fun n => (fresh tools o tasks n).after (found tools o n (start workers w) history))
      s.world := by
  revert hsubmitted
  refine run_induction (P := fun history s => s.submitted <+: tasks → Schedule tools o tasks w
    (fun n => (fresh tools o tasks n).after (found tools o n (start workers w) history)) s.world)
    ?_ ?_ hrun
  · intro _
    rw [show (fun n => (fresh tools o tasks n).after (found tools o n (start workers w) [])) =
      fresh tools o tasks from funext fun n => Job.after_nil _]
    exact .start
  · intro history t e t' hrun h hstep hsubmitted
    have hbefore : t.submitted <+: tasks := by
      rw [(step_frame hstep).1] at hsubmitted
      exact (List.prefix_append _ _).trans hsubmitted
    cases e with
    | advance i =>
        obtain ⟨m, task, change, next, hworker, rfl⟩ := step_advance hstep
        obtain ⟨htask, hwork⟩ := (attributed_of_run hrun).workers i _ hworker
        have hfound := found_concat_advance hrun hstep hworker
        have ht : tasks[m]? = some task := by
          obtain ⟨more, rfl⟩ := hbefore
          exact getElem?_append_some htask
        have hleft : (fresh tools o tasks m).after (found tools o m (start workers w) history) =
            .step change next := by
          rw [fresh_of_some ht]
          exact hwork
        refine (congrArg (Schedule tools o tasks w · (change t.world)) (funext fun n => ?_)).mp
          ((h hbefore).step hleft)
        by_cases hn : n = m
        · subst hn
          rw [Function.update_self, hfound, if_pos rfl, Job.after_append, hleft]
          exact (Job.after_nil _).symm
        · rw [Function.update_of_ne hn, hfound, if_neg (Ne.symm hn), List.append_nil]
    | submit | start | finish | report | exit | drain | receive | giveUp | disconnect | join =>
        rw [step_world hstep nofun]
        have hsame := found_concat_of_none hrun hstep fun _ => rfl
        simp only [funext_iff] at hsame
        simp only [hsame]
        exact h hbefore

/-- A task with an outcome that did not time out has ended with it. -/
theorem exists_done (hrun : (start workers w).run tools o history = some s)
    (hended : ∀ out ∈ s.report.outcomes, out.status ≠ .timedOut) {t : MergeTask}
    (ht : s.submitted[n]? = some t) : ∃ result,
      (fresh tools o s.submitted n).after (found tools o n (start workers w) history) =
        .done result ∧
      s.received[n]?.getD (outcomeOf t none) = outcomeOf t (TaskStatus.ofWork? result) := by
  have houtcome : s.report.outcomes[n]? = some (s.received[n]?.getD (outcomeOf t none)) := by
    rw [report, List.getElem?_mapIdx, ht]
    rfl
  cases hreceived : s.received[n]? with
  | none =>
      rw [hreceived] at houtcome
      exact absurd rfl (hended _ (List.mem_of_getElem? houtcome))
  | some outcome =>
      obtain ⟨own, result, status, hown, hresult, hstatus, rfl⟩ :=
        (attributed_of_run hrun).received n outcome hreceived
      obtain rfl := Option.some.inj (ht.symm.trans hown)
      refine ⟨result, ?_, ?_⟩
      · rw [fresh_of_some ht]
        exact hresult
      · rw [hstatus]
        rfl

/-- **A pool whose tasks have all ended is a schedule** that leaves nothing to do, with the outcomes
of its results. -/
theorem exists_schedule (hrun : (start workers w).run tools o history = some s)
    (hended : ∀ out ∈ s.report.outcomes, out.status ≠ .timedOut) :
    ∃ result : Nat → Except Stop TaskStatus,
      Schedule tools o s.submitted w (fun n => .done (result n)) s.world ∧
      s.report.outcomes =
        s.submitted.mapIdx fun n t => outcomeOf t (TaskStatus.ofWork? (result n)) := by
  have hall : ∀ n, ∃ result,
      (fresh tools o s.submitted n).after (found tools o n (start workers w) history) =
        .done result ∧
      ∀ t, s.submitted[n]? = some t →
        s.received[n]?.getD (outcomeOf t none) = outcomeOf t (TaskStatus.ofWork? result) := by
    intro n
    cases ht : s.submitted[n]? with
    | none =>
        refine ⟨.error .stalled, ?_, nofun⟩
        rw [fresh_of_none ht]
        exact Job.after_done _ _
    | some t =>
        obtain ⟨result, hdone, houtcome⟩ := exists_done hrun hended ht
        refine ⟨result, hdone, fun u hu => ?_⟩
        cases hu
        exact houtcome
  choose result hresult houtcome using hall
  have hschedule := schedule_of_run hrun List.prefix_rfl
  rw [funext hresult] at hschedule
  refine ⟨result, hschedule, List.ext_getElem? fun n => ?_⟩
  rw [report, List.getElem?_mapIdx, List.getElem?_mapIdx]
  cases ht : s.submitted[n]? with
  | none => rfl
  | some t => rw [Option.map_some, Option.map_some, houtcome n t ht]

end State

/-! ### Schedules that come to the same -/

/-- All schedules of the tasks come to the same results and leave the same files. -/
def Confluent (tools : Toolchain σ) (o : MergeOptions) (tasks : List MergeTask) (w : World σ) : Prop :=
  ∀ (result result' : Nat → Except Stop TaskStatus) (v v' : World σ),
    Schedule tools o tasks w (fun n => .done (result n)) v →
    Schedule tools o tasks w (fun n => .done (result' n)) v' →
    result = result' ∧ v.disk.AgreesOn (fun _ => True) v'.disk

/-- **A pool whose tasks have all ended leaves what its tasks leave in order**, if all schedules
come to the same: it has the same outcomes and leaves the same disk, however many workers there were
and in whatever order they acted. -/
theorem Confluent.agrees_runInOrder {s : State σ} {workers : Nat} {history : List Event}
    (h : Confluent tools o s.submitted w)
    (hrun : (State.start workers w).run tools o history = some s)
    (hended : ∀ out ∈ s.report.outcomes, out.status ≠ .timedOut) :
    s.report.outcomes = (runInOrder tools o s.submitted w).1.outcomes ∧
      (runInOrder tools o s.submitted w).2.disk.AgreesOn (fun _ => True) s.world.disk := by
  obtain ⟨result, hpool, houtcomes⟩ := State.exists_schedule hrun hended
  obtain ⟨result', hinOrder, houtcomes'⟩ := exists_schedule_runInOrder tools o s.submitted w
  obtain ⟨rfl, hdisk⟩ := h result' result _ _ hinOrder hpool
  exact ⟨houtcomes.trans houtcomes'.symm, hdisk⟩

end CharacterArt.MergePool
