import CharacterArt.Proofs.Job
import CharacterArt.Proofs.Merge.Numbers

/-!
# Whose outcome an outcome is

An outcome carries the number of a task from the worker that runs the task to the one who drains.
On the whole way it is the outcome that the task with this number earned: the steps of that task's
own job, each on the world that it found, came to it.

## Main Definitions

* `State.found` — the worlds that the steps of a task found
* `State.Earned` — an outcome is what the steps of a task came to

## Main Results

* `State.Attributed.step` — one event leaves everything with its own task
* `State.attributed_of_run` — workers, channel and received outcomes belong to the tasks whose
  numbers they carry
-/

namespace CharacterArt.MergePool.State

variable {σ : Type}

/-- The world that a step of the task with number `n` finds. -/
def found? (n : Nat) (s : State σ) : Event → Option (World σ)
  | .advance i =>
    match s.workers[i]? with
    | some (.running m _ _) => if m = n then some s.world else none
    | _ => none
  | _ => none

/-- The worlds that the steps of the task with number `n` found, in order. -/
def found (tools : Toolchain σ) (o : MergeOptions) (n : Nat) (s : State σ) (history : List Event) :
    List (World σ) :=
  along tools o (found? n) s history

section Predicates

variable (tools : Toolchain σ) (o : MergeOptions) (tasks : List MergeTask)
  (found : Nat → List (World σ))

/-- An outcome is what the steps of the task with number `n` came to. -/
def Earned (n : Nat) (outcome : TaskOutcome) : Prop :=
  ∃ task result status, tasks[n]? = some task ∧
    (task.job tools o (scratchOf n)).run.after (found n) = .done result ∧
    TaskStatus.ofWork? result = some status ∧ outcome = ⟨task.outputPath, task.keys, status⟩

/-- What a worker does belongs to the task whose number it has. -/
def WorkerAttributed : Worker σ → Prop
  | .idle | .gone => True
  | .taken n task => tasks[n]? = some task ∧ found n = []
  | .running n task work =>
    tasks[n]? = some task ∧ (task.job tools o (scratchOf n)).run.after (found n) = work
  | .reporting n outcome => Earned tools o tasks found n outcome

/-- Everything in a pool belongs to the task whose number it carries. -/
structure Attributed (s : State σ) : Prop where
  lt_of_found : ∀ n, found n ≠ [] → n < s.submitted.length
  workers : ∀ (i : Nat) v, s.workers[i]? = some v → WorkerAttributed tools o s.submitted found v
  channel : ∀ n outcome, (n, outcome) ∈ s.channel → Earned tools o s.submitted found n outcome
  received : ∀ n outcome, s.received[n]? = some outcome →
    Earned tools o s.submitted found n outcome

end Predicates

section Later

variable {tools : Toolchain σ} {o : MergeOptions} {tasks tasks' : List MergeTask}
  {before after : Nat → List (World σ)}

/-- What was earned stays so. -/
theorem Earned.later {n : Nat} {outcome : TaskOutcome} (h : Earned tools o tasks before n outcome)
    (htasks : ∀ task, tasks[n]? = some task → tasks'[n]? = some task)
    (hfound : before n <+: after n) : Earned tools o tasks' after n outcome := by
  obtain ⟨task, result, status, htask, hresult, hstatus, houtcome⟩ := h
  obtain ⟨rest, hrest⟩ := hfound
  refine ⟨task, result, status, htasks task htask, ?_, hstatus, houtcome⟩
  rw [← hrest, Job.after_append, hresult]
  cases rest <;> rfl

/-- What a worker does stays its task's if no other steps of that task are taken. -/
theorem WorkerAttributed.later {v : Worker σ} (h : WorkerAttributed tools o tasks before v)
    (htasks : ∀ (n : Nat) task, tasks[n]? = some task → tasks'[n]? = some task)
    (hfound : ∀ n, v.number? = some n → after n = before n) :
    WorkerAttributed tools o tasks' after v := by
  cases v with
  | idle => trivial
  | taken n task => exact ⟨htasks n task h.1, (hfound n rfl).trans h.2⟩
  | running n task work => exact ⟨htasks n task h.1, by rw [hfound n rfl]; exact h.2⟩
  | reporting n outcome =>
      have hsame : before n <+: after n := by
        rewrite [hfound n rfl]
        exact List.prefix_rfl
      exact Earned.later h (htasks n) hsame
  | gone => trivial

theorem getElem?_append_some {more : List MergeTask} {n : Nat} {task : MergeTask}
    (h : tasks[n]? = some task) : (tasks ++ more)[n]? = some task := by
  obtain ⟨hn, rfl⟩ := List.getElem?_eq_some_iff.mp h
  rw [List.getElem?_append_left hn, List.getElem?_eq_getElem hn]

end Later

namespace Attributed

variable {tools : Toolchain σ} {o : MergeOptions} {found : Nat → List (World σ)} {s s' : State σ}

theorem setWorker (h : Attributed tools o found s) (i : Nat) {new : Worker σ}
    (hnew : WorkerAttributed tools o s.submitted found new) :
    Attributed tools o found (s.setWorker i new) where
  lt_of_found := h.lt_of_found
  workers j v hv := by
    rcases getElem?_setWorker hv with ⟨-, rfl⟩ | ⟨-, hv⟩
    · exact hnew
    · exact h.workers j v hv
  channel := h.channel
  received := h.received

/-- A task that is submitted changes nothing for the others. -/
theorem submit (h : Attributed tools o found s) (task : MergeTask) :
    Attributed tools o found { s with submitted := s.submitted ++ [task] } where
  lt_of_found n hn := by
    rw [List.length_append]
    exact Nat.lt_add_right _ (h.lt_of_found n hn)
  workers i v hv := (h.workers i v hv).later (fun _ _ => getElem?_append_some) fun _ _ => rfl
  channel n outcome hmem :=
    (h.channel n outcome hmem).later (fun _ => getElem?_append_some) List.prefix_rfl
  received n outcome hmem :=
    (h.received n outcome hmem).later (fun _ => getElem?_append_some) List.prefix_rfl

/-- **An event that is no step of a task leaves everything with its own task.** -/
theorem step {e : Event} (h : Attributed tools o found s) (hstep : s.step tools o e = some s')
    (hquiet : ∀ i, e ≠ .advance i) : Attributed tools o found s' := by
  cases e with
  | submit i task =>
      obtain ⟨-, -, rfl⟩ := step_submit hstep
      -- No step of the new task was taken, since its number is new.
      have hfresh : found s.submitted.length = [] := by
        by_contra hne
        exact Nat.lt_irrefl _ (h.lt_of_found _ hne)
      have htask : (s.submitted ++ [task])[s.submitted.length]? = some task := by
        rw [List.getElem?_append_right (Nat.le_refl _), Nat.sub_self]
        rfl
      exact (h.submit task).setWorker i ⟨htask, hfresh⟩
  | start i =>
      obtain ⟨n, task, hworker, rfl⟩ := step_start hstep
      obtain ⟨htask, hfresh⟩ := h.workers i _ hworker
      have hnew : WorkerAttributed tools o s.submitted found
          (.running n task (task.job tools o (scratchOf n)).run) :=
        ⟨htask, by rw [hfresh, Job.after_nil]⟩
      have hset := h.setWorker i hnew
      exact ⟨hset.lt_of_found, hset.workers, hset.channel, hset.received⟩
  | advance i => exact absurd rfl (hquiet i)
  | finish i =>
      obtain ⟨n, task, result, status, hworker, hstatus, rfl⟩ := step_finish hstep
      obtain ⟨htask, hwork⟩ := h.workers i _ hworker
      have hnew : WorkerAttributed tools o s.submitted found
          (.reporting n ⟨task.outputPath, task.keys, status⟩) :=
        ⟨task, result, status, htask, hwork, hstatus, rfl⟩
      have hset := h.setWorker i hnew
      exact ⟨hset.lt_of_found, hset.workers, hset.channel, hset.received⟩
  | report i =>
      obtain ⟨n, outcome, hworker, rfl⟩ := step_report hstep
      have hset : Attributed tools o found (s.setWorker i .idle) := h.setWorker i trivial
      refine ⟨hset.lt_of_found, hset.workers, ?_, hset.received⟩
      intro m other hmem
      rcases List.mem_append.mp hmem with hmem | hmem
      · exact h.channel m other hmem
      · cases List.mem_singleton.mp hmem
        exact h.workers i _ hworker
  | exit i =>
      obtain ⟨-, -, rfl⟩ := step_exit hstep
      exact h.setWorker i trivial
  | drain =>
      obtain ⟨-, rfl⟩ := step_drain hstep
      exact ⟨h.lt_of_found, h.workers, h.channel, h.received⟩
  | receive =>
      obtain ⟨n, outcome, rest, hchannel, -, rfl⟩ := step_receive hstep
      have hearned : ∀ m other, (m, other) ∈ (n, outcome) :: rest →
          Earned tools o s.submitted found m other := hchannel ▸ h.channel
      refine ⟨h.lt_of_found, h.workers, ?_, ?_⟩
      · intro m other hmem
        exact hearned m other (List.mem_cons_of_mem _ hmem)
      · intro m other hother
        rw [Std.TreeMap.getElem?_insert] at hother
        split at hother
        · next heq =>
            cases hother
            rw [← Std.compare_eq_iff_eq.mp heq]
            exact hearned n outcome List.mem_cons_self
        · exact h.received m other hother
  | giveUp =>
      obtain ⟨-, -, rfl⟩ := step_giveUp hstep
      exact ⟨h.lt_of_found, h.workers, h.channel, h.received⟩
  | disconnect =>
      obtain ⟨-, -, -, rfl⟩ := step_disconnect hstep
      exact ⟨h.lt_of_found, h.workers, h.channel, h.received⟩
  | join =>
      obtain ⟨-, -, -, rfl⟩ := step_join hstep
      exact ⟨h.lt_of_found, h.workers, h.channel, h.received⟩

end Attributed

/-! ### Histories -/

section Runs

variable {tools : Toolchain σ} {o : MergeOptions} {s t t' : State σ} {workers : Nat} {w : World σ}
  {history : List Event} {e : Event}

/-- Events that are no steps of tasks find nothing. -/
theorem found_concat_of_none (hrun : s.run tools o history = some t)
    (hstep : t.step tools o e = some t') (hnone : ∀ n, found? n t e = none) :
    (fun n => found tools o n s (history ++ [e])) = fun n => found tools o n s history := by
  funext n
  rw [found, along_concat hrun hstep, hnone, Option.toList_none, List.append_nil]
  rfl

/-- A step of a task finds the world as it is. -/
theorem found_concat_advance {i m : Nat} {task : MergeTask}
    {work : Job (World σ) (Except Stop TaskStatus)} (hrun : s.run tools o history = some t)
    (hstep : t.step tools o (.advance i) = some t')
    (hworker : t.workers[i]? = some (.running m task work)) (n : Nat) :
    found tools o n s (history ++ [.advance i]) =
      found tools o n s history ++ if m = n then [t.world] else [] := by
  rw [found, along_concat hrun hstep]
  simp only [found?, hworker]
  by_cases hmn : m = n
  · rw [if_pos hmn, if_pos hmn]
    rfl
  · rw [if_neg hmn, if_neg hmn]
    rfl

theorem attributed_start :
    Attributed tools o (fun n => found tools o n (start workers w) []) (start workers w) where
  lt_of_found n hn := absurd rfl hn
  workers i v hv := by
    rw [List.eq_of_mem_replicate (List.mem_of_getElem? hv)]
    trivial
  channel n outcome hmem := absurd hmem List.not_mem_nil
  received n outcome hfound := by
    rw [start, Std.TreeMap.getElem?_emptyc] at hfound
    cases hfound

/-- One step of a task concerns no other task. -/
theorem attributed_advance {i : Nat} (hrun : (start workers w).run tools o history = some t)
    (h : Attributed tools o (fun n => found tools o n (start workers w) history) t)
    (hstep : t.step tools o (.advance i) = some t') :
    Attributed tools o
      (fun n => found tools o n (start workers w) (history ++ [.advance i])) t' := by
  obtain ⟨m, task, change, next, hworker, rfl⟩ := step_advance hstep
  have hfound := found_concat_advance hrun hstep hworker
  obtain ⟨htask, hwork⟩ := h.workers i _ hworker
  -- outcomes do not change when further worlds are found behind them
  have hgrows : ∀ n, found tools o n (start workers w) history <+:
      found tools o n (start workers w) (history ++ [.advance i]) := by
    intro n
    rw [hfound]
    exact List.prefix_append _ _
  refine ⟨fun n hn => ?_, fun j v hv => ?_,
    fun n outcome hmem => (h.channel n outcome hmem).later (fun _ => id) (hgrows n),
    fun n outcome hmem => (h.received n outcome hmem).later (fun _ => id) (hgrows n)⟩
  · by_cases hmn : m = n
    · subst hmn
      exact (List.getElem?_eq_some_iff.mp htask).1
    · rw [hfound, if_neg hmn, List.append_nil] at hn
      exact h.lt_of_found n hn
  · rcases getElem?_setWorker hv with ⟨-, rfl⟩ | ⟨hij, hv⟩
    · refine ⟨htask, ?_⟩
      beta_reduce
      rw [hfound, if_pos rfl, Job.after_append, hwork]
      exact Job.after_nil _
    · -- another worker has another task
      refine (h.workers j v hv).later (fun _ _ => id) fun n hn => ?_
      have hmn : m ≠ n := by
        rintro rfl
        exact hij (eq_of_number?_eq hrun hworker hv rfl hn)
      rw [hfound, if_neg hmn, List.append_nil]

/-- **Everything in a pool belongs to the task whose number it carries.** -/
theorem attributed_of_run (hrun : (start workers w).run tools o history = some s) :
    Attributed tools o (fun n => found tools o n (start workers w) history) s := by
  refine run_induction
    (P := fun history s =>
      Attributed tools o (fun n => found tools o n (start workers w) history) s)
    attributed_start ?_ hrun
  intro history t e t' hrun h hstep
  cases e with
  | advance i => exact attributed_advance hrun h hstep
  | submit | start | finish | report | exit | drain | receive | giveUp | disconnect | join =>
      rw [found_concat_of_none hrun hstep fun _ => rfl]
      exact h.step hstep nofun

end Runs

end CharacterArt.MergePool.State
