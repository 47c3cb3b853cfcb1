import CharacterArt.Proofs.Merge.Steps

/-!
# Numbers of tasks

Every task that was submitted is in one place: with one worker, in the channel, or among the
outcomes that were received.

## Main Definitions

* `Worker.number?` — the number of the task that a worker has
* `State.outstanding`, `State.numbers` — the tasks without an outcome that was received, and all
  tasks

## Main Results

* `State.numbers_perm` — the outstanding tasks and the received ones are all tasks, each once
* `State.eq_of_number?_eq` — no two workers have one task
* `State.outstanding_eq_nil_iff` — nothing is outstanding once as many outcomes as tasks are there
-/

namespace CharacterArt.MergePool

variable {σ : Type}

/-- The number of the task that a worker has. -/
def Worker.number? : Worker σ → Option Nat
  | .taken n _ | .running n _ _ | .reporting n _ => some n
  | .idle | .gone => none

namespace State

/-- The numbers of the tasks without an outcome that was received. -/
def outstanding (s : State σ) : List Nat :=
  s.workers.filterMap Worker.number? ++ s.channel.map Prod.fst

/-- The numbers of all tasks, by the places where the tasks or their outcomes are. -/
def numbers (s : State σ) : List Nat :=
  s.outstanding ++ s.received.keys

/-- What an entry of a list that is replaced means for what is taken from all entries. -/
theorem filterMap_set_perm {α β : Type} (f : α → Option β) {l : List α} {i : Nat} {old : α}
    (h : l[i]? = some old) (new : α) :
    ((f new).toList ++ l.filterMap f).Perm ((f old).toList ++ (l.set i new).filterMap f) := by
  have hcons : ∀ (a : α) (l : List α), (a :: l).filterMap f = (f a).toList ++ l.filterMap f := by
    intro a l
    cases ha : f a with
    | none => rw [List.filterMap_cons_none ha, Option.toList_none, List.nil_append]
    | some b => rw [List.filterMap_cons_some ha, Option.toList_some, List.singleton_append]
  induction l generalizing i with
  | nil => cases h
  | cons a l ih =>
      cases i with
      | zero =>
          cases h
          rw [List.set_cons_zero, hcons, hcons]
          exact List.perm_append_comm_assoc _ _ _
      | succ i =>
          rw [List.set_cons_succ, hcons, hcons]
          exact (List.perm_append_comm_assoc _ _ _).trans <|
            ((ih h).append_left _).trans (List.perm_append_comm_assoc _ _ _)

/-- A worker that does something else for its task, or still has none. -/
theorem numbers_perm_of_set {s s' : State σ} {i : Nat} {old new : Worker σ}
    (h : s.workers[i]? = some old) (hworkers : s'.workers = s.workers.set i new)
    (hchannel : s'.channel = s.channel) (hreceived : s'.received = s.received)
    (hnumber : new.number? = old.number?) : s'.numbers.Perm s.numbers := by
  have hperm := filterMap_set_perm Worker.number? h new
  rw [hnumber, List.perm_append_left_iff, ← hworkers] at hperm
  rw [numbers, numbers, outstanding, outstanding, hchannel, hreceived]
  exact (hperm.symm.append_right _).append_right _

/-- A number that is inserted is one of those received. -/
theorem keys_insert_perm {received : Std.TreeMap Nat TaskOutcome} {n : Nat} (hn : n ∉ received)
    (outcome : TaskOutcome) :
    (received.insert n outcome).keys.Perm (n :: received.keys) := by
  rw [List.perm_ext_iff_of_nodup Std.TreeMap.nodup_keys (List.nodup_cons.mpr
    ⟨fun hmem => hn (Std.TreeMap.mem_keys.mp hmem), Std.TreeMap.nodup_keys⟩)]
  intro m
  rw [Std.TreeMap.mem_keys, Std.TreeMap.mem_insert, List.mem_cons, Std.TreeMap.mem_keys,
    Std.compare_eq_iff_eq, eq_comm]

/-- The outcome that comes next is the first one for its task. -/
theorem not_mem_received {s : State σ} (hnodup : s.numbers.Nodup) {n : Nat} {outcome : TaskOutcome}
    {rest : List (Nat × TaskOutcome)} (hchannel : s.channel = (n, outcome) :: rest) :
    n ∉ s.received := by
  intro hmem
  rw [numbers, outstanding, hchannel, List.map_cons] at hnodup
  obtain ⟨-, -, hdisjoint⟩ := List.nodup_append.mp hnodup
  exact hdisjoint n (List.mem_append_right _ List.mem_cons_self) n
    (Std.TreeMap.mem_keys.mpr hmem) rfl

section Runs

variable {tools : Toolchain σ} {o : MergeOptions} {s s' : State σ} {workers : Nat} {w : World σ}
  {history : List Event}

/-- What an event does to the numbers of tasks: a task that is submitted brings a new one. -/
theorem step_numbers {e : Event} (hstep : s.step tools o e = some s') (hnodup : s.numbers.Nodup) :
    (∃ task, s'.submitted = s.submitted ++ [task] ∧
      s'.numbers.Perm (s.submitted.length :: s.numbers)) ∨
    s'.submitted = s.submitted ∧ s'.numbers.Perm s.numbers := by
  cases e with
  | submit i task =>
      obtain ⟨-, hworker, rfl⟩ := step_submit hstep
      have hperm := filterMap_set_perm Worker.number? hworker (.taken s.submitted.length task)
      exact .inl ⟨task, rfl, (hperm.symm.append_right _).append_right _⟩
  | start i =>
      obtain ⟨n, task, hworker, rfl⟩ := step_start hstep
      exact .inr ⟨rfl, numbers_perm_of_set hworker rfl rfl rfl rfl⟩
  | advance i =>
      obtain ⟨n, task, change, next, hworker, rfl⟩ := step_advance hstep
      exact .inr ⟨rfl, numbers_perm_of_set hworker rfl rfl rfl rfl⟩
  | finish i =>
      obtain ⟨n, task, result, status, hworker, -, rfl⟩ := step_finish hstep
      exact .inr ⟨rfl, numbers_perm_of_set hworker rfl rfl rfl rfl⟩
  | report i =>
      obtain ⟨n, outcome, hworker, rfl⟩ := step_report hstep
      have hperm := filterMap_set_perm Worker.number? hworker .idle
      refine .inr ⟨rfl, List.Perm.append_right _ ?_⟩
      -- the number goes from the worker into the channel
      show ((s.workers.set i .idle).filterMap Worker.number? ++
        (s.channel ++ [(n, outcome)]).map Prod.fst).Perm s.outstanding
      rw [List.map_append, List.map_singleton, ← List.append_assoc, outstanding]
      exact List.perm_append_comm.trans (hperm.symm.append_right _)
  | exit i =>
      obtain ⟨-, hworker, rfl⟩ := step_exit hstep
      exact .inr ⟨rfl, numbers_perm_of_set hworker rfl rfl rfl rfl⟩
  | drain =>
      obtain ⟨-, rfl⟩ := step_drain hstep
      exact .inr ⟨rfl, .refl _⟩
  | receive =>
      obtain ⟨n, outcome, rest, hchannel, -, rfl⟩ := step_receive hstep
      have hn := not_mem_received hnodup hchannel
      refine .inr ⟨rfl, ?_⟩
      -- the number goes from the channel to the outcomes that were received
      rw [numbers, numbers, outstanding, outstanding, hchannel, List.map_cons]
      refine ((keys_insert_perm hn outcome).append_left _).trans ?_
      simp only [List.append_assoc, List.cons_append]
      exact List.Perm.append_left _ List.perm_middle
  | giveUp =>
      obtain ⟨-, -, rfl⟩ := step_giveUp hstep
      exact .inr ⟨rfl, .refl _⟩
  | disconnect =>
      obtain ⟨-, -, -, rfl⟩ := step_disconnect hstep
      exact .inr ⟨rfl, .refl _⟩
  | join =>
      obtain ⟨-, -, -, rfl⟩ := step_join hstep
      exact .inr ⟨rfl, .refl _⟩

/-- **The tasks that are outstanding and those that were received are all tasks, each once.** -/
theorem numbers_perm (hrun : (start workers w).run tools o history = some s) :
    s.numbers.Perm (List.range s.submitted.length) := by
  refine run_induction (P := fun _ s => s.numbers.Perm (List.range s.submitted.length)) ?_ ?_ hrun
  · have hnone : ∀ n, (List.replicate n (Worker.idle (σ := σ))).filterMap Worker.number? = [] := by
      intro n
      rw [List.filterMap_replicate]
      rfl
    show (((List.replicate (max workers 1) Worker.idle).filterMap Worker.number? ++ []) ++
      (∅ : Std.TreeMap Nat TaskOutcome).keys).Perm []
    rw [hnone]
    exact .refl _
  · intro history t e t' _ ht hstep
    have hnodup : t.numbers.Nodup := ht.nodup_iff.mpr List.nodup_range
    rcases step_numbers hstep hnodup with ⟨task, hsubmitted, hperm⟩ | ⟨hsubmitted, hperm⟩
    · rw [hsubmitted, List.length_append, List.length_singleton, List.range_succ]
      exact hperm.trans ((ht.cons _).trans (List.perm_append_singleton _ _).symm)
    · rw [hsubmitted]
      exact hperm.trans ht

theorem nodup_numbers (hrun : (start workers w).run tools o history = some s) : s.numbers.Nodup :=
  (numbers_perm hrun).nodup_iff.mpr List.nodup_range

/-- Nothing is outstanding if, and only if, there are as many outcomes as tasks. -/
theorem outstanding_eq_nil_iff (hrun : (start workers w).run tools o history = some s) :
    s.outstanding = [] ↔ s.submitted.length ≤ s.received.size := by
  have hlength := (numbers_perm hrun).length_eq
  rw [numbers, List.length_append, Std.TreeMap.length_keys, List.length_range] at hlength
  rw [← List.length_eq_zero_iff]
  omega

/-- **No two workers have one task.** -/
theorem eq_of_number?_eq (hrun : (start workers w).run tools o history = some s) {i j n : Nat}
    {u v : Worker σ} (hu : s.workers[i]? = some u) (hv : s.workers[j]? = some v)
    (hun : u.number? = some n) (hvn : v.number? = some n) : i = j := by
  -- the numbers that workers have are part of the numbers of all tasks
  have hnodup : (s.workers.filterMap Worker.number?).Nodup :=
    (List.nodup_append.mp (List.nodup_append.mp (nodup_numbers hrun)).1).1
  rw [List.Nodup, List.pairwise_filterMap, List.pairwise_iff_getElem] at hnodup
  obtain ⟨hi, rfl⟩ := List.getElem?_eq_some_iff.mp hu
  obtain ⟨hj, rfl⟩ := List.getElem?_eq_some_iff.mp hv
  rcases Nat.lt_trichotomy i j with hlt | heq | hgt
  · exact absurd rfl (hnodup i j hi hj hlt n hun n hvn)
  · exact heq
  · exact absurd rfl (hnodup j i hj hi hgt n hvn n hun)

end Runs

end State

end CharacterArt.MergePool
