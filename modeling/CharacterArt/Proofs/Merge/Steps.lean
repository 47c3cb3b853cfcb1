import CharacterArt.Merge.Interleaving
import Mathlib.Data.List.Induction

/-!
# Steps of pools

What each event needs and what it does, said once for all invariants, and the induction over the
histories of a pool.

## Main Definitions

* `Event.submitted?` — the task that an event submits
* `State.along` — what is noted of the events of a history

## Main Results

* `State.step_submit`, `State.step_receive` and the like — an event that can happen, taken apart
* `State.step_frame` — what every event does to the tasks, the workers and the stage
* `State.step_world` — only steps of tasks change the world
* `State.run_induction` — what holds at the start and is kept by every event holds after every
  history
-/

namespace CharacterArt.MergePool

/-- The task that an event submits. -/
def Event.submitted? : Event → Option MergeTask
  | .submit _ task => some task
  | _ => none

namespace State

variable {σ β : Type} {tools : Toolchain σ} {o : MergeOptions} {s s' : State σ}

/-! ### Events -/

theorem step_submit {i : Nat} {task : MergeTask} (h : s.step tools o (.submit i task) = some s') :
    s.stage = .accepting ∧ s.workers[i]? = some .idle ∧
      s' = { s.setWorker i (.taken s.submitted.length task) with
        submitted := s.submitted ++ [task] } := by
  simp only [step] at h
  split at h
  · next hstage hworker =>
      cases h
      exact ⟨hstage, hworker, rfl⟩
  · cases h

theorem step_start {i : Nat} (h : s.step tools o (.start i) = some s') :
    ∃ n task, s.workers[i]? = some (.taken n task) ∧
      s' = { s.setWorker i (.running n task (task.job tools o (scratchOf n)).run) with
        inFlight := s.inFlight + 1
        peak := max s.peak (s.inFlight + 1) } := by
  simp only [step] at h
  split at h
  · next n task hworker =>
      cases h
      exact ⟨n, task, hworker, rfl⟩
  · cases h

theorem step_advance {i : Nat} (h : s.step tools o (.advance i) = some s') :
    ∃ n task change next, s.workers[i]? = some (.running n task (.step change next)) ∧
      s' = { s.setWorker i (.running n task (next s.world)) with world := change s.world } := by
  simp only [step] at h
  split at h
  · next n task change next hworker =>
      cases h
      exact ⟨n, task, change, next, hworker, rfl⟩
  · cases h

theorem step_finish {i : Nat} (h : s.step tools o (.finish i) = some s') :
    ∃ n task result status, s.workers[i]? = some (.running n task (.done result)) ∧
      TaskStatus.ofWork? result = some status ∧
      s' = { s.setWorker i (.reporting n ⟨task.outputPath, task.keys, status⟩) with
        inFlight := s.inFlight - 1 } := by
  simp only [step] at h
  split at h
  · next n task result hworker =>
      obtain ⟨status, hstatus, rfl⟩ := Option.map_eq_some_iff.mp h
      exact ⟨n, task, result, status, hworker, hstatus, rfl⟩
  · cases h

theorem step_report {i : Nat} (h : s.step tools o (.report i) = some s') :
    ∃ n outcome, s.workers[i]? = some (.reporting n outcome) ∧
      s' = { s.setWorker i .idle with channel := s.channel ++ [(n, outcome)] } := by
  simp only [step] at h
  split at h
  · next n outcome hworker =>
      cases h
      exact ⟨n, outcome, hworker, rfl⟩
  · cases h

theorem step_exit {i : Nat} (h : s.step tools o (.exit i) = some s') :
    s.stage ≠ .accepting ∧ s.workers[i]? = some .idle ∧ s' = s.setWorker i .gone := by
  simp only [step] at h
  split at h
  · next hstage hworker =>
      cases h
      exact ⟨by simp [hstage], hworker, rfl⟩
  · next hstage hworker =>
      cases h
      exact ⟨by simp [hstage], hworker, rfl⟩
  · cases h

theorem step_drain (h : s.step tools o .drain = some s') :
    s.stage = .accepting ∧ s' = { s with stage := .draining } := by
  simp only [step] at h
  split at h
  · next hstage =>
      cases h
      exact ⟨hstage, rfl⟩
  · cases h

theorem step_receive (h : s.step tools o .receive = some s') :
    ∃ n outcome rest, s.channel = (n, outcome) :: rest ∧ s.isWaiting = true ∧
      s' = { s with
        channel := rest
        received := s.received.insert n outcome
        progress := s.progress ++
          [⟨.merging, s.received.size + 1, s.submitted.length, some outcome.output⟩] } := by
  simp only [step] at h
  split at h
  · cases h
  · next n outcome rest hchannel =>
      split at h
      · next hwaiting =>
          cases h
          exact ⟨n, outcome, rest, hchannel, hwaiting, rfl⟩
      · cases h

theorem step_giveUp (h : s.step tools o .giveUp = some s') :
    s.isWaiting = true ∧ s.channel = [] ∧ s' = { s with stage := .closed } := by
  simp only [step] at h
  split at h
  · next hready =>
      cases h
      rw [Bool.and_eq_true, List.isEmpty_iff] at hready
      exact ⟨hready.1, hready.2, rfl⟩
  · cases h

theorem step_disconnect (h : s.step tools o .disconnect = some s') :
    s.isWaiting = true ∧ s.channel = [] ∧ s.isDeserted = true ∧
      s' = { s with stage := .closed } := by
  simp only [step] at h
  split at h
  · next hready =>
      cases h
      rw [Bool.and_eq_true, Bool.and_eq_true, List.isEmpty_iff] at hready
      exact ⟨hready.1.1, hready.1.2, hready.2, rfl⟩
  · cases h

theorem step_join (h : s.step tools o .join = some s') :
    s.stage = .draining ∧ s.submitted.length ≤ s.received.size ∧ s.isDeserted = true ∧
      s' = { s with stage := .closed } := by
  simp only [step] at h
  split at h
  · next hready =>
      cases h
      exact ⟨hready.1, hready.2.1, hready.2.2, rfl⟩
  · cases h

/-- **What every event does to the tasks, the workers and the stage.**  Tasks are only added, one
worker does something else at most, none leaves while tasks are accepted, and tasks are not accepted
again. -/
theorem step_frame {e : Event} (h : s.step tools o e = some s') :
    s'.submitted = s.submitted ++ e.submitted?.toList ∧
      (s'.workers = s.workers ∨ ∃ i v, s'.workers = s.workers.set i v ∧
        (v.isGone = true → s.stage ≠ .accepting)) ∧
      (s'.stage = .accepting → s.stage = .accepting) := by
  have hnone : s.submitted = s.submitted ++ (none : Option MergeTask).toList := by simp
  cases e with
  | submit i task =>
      obtain ⟨-, -, rfl⟩ := step_submit h
      exact ⟨rfl, .inr ⟨i, _, rfl, nofun⟩, id⟩
  | start i =>
      obtain ⟨n, task, -, rfl⟩ := step_start h
      exact ⟨hnone, .inr ⟨i, _, rfl, nofun⟩, id⟩
  | advance i =>
      obtain ⟨n, task, change, next, -, rfl⟩ := step_advance h
      exact ⟨hnone, .inr ⟨i, _, rfl, nofun⟩, id⟩
  | finish i =>
      obtain ⟨n, task, result, status, -, -, rfl⟩ := step_finish h
      exact ⟨hnone, .inr ⟨i, _, rfl, nofun⟩, id⟩
  | report i =>
      obtain ⟨n, outcome, -, rfl⟩ := step_report h
      exact ⟨hnone, .inr ⟨i, _, rfl, nofun⟩, id⟩
  | exit i =>
      obtain ⟨hstage, -, rfl⟩ := step_exit h
      exact ⟨hnone, .inr ⟨i, _, rfl, fun _ => hstage⟩, id⟩
  | drain =>
      obtain ⟨-, rfl⟩ := step_drain h
      exact ⟨hnone, .inl rfl, nofun⟩
  | receive =>
      obtain ⟨n, outcome, rest, -, -, rfl⟩ := step_receive h
      exact ⟨hnone, .inl rfl, id⟩
  | giveUp =>
      obtain ⟨-, -, rfl⟩ := step_giveUp h
      exact ⟨hnone, .inl rfl, nofun⟩
  | disconnect =>
      obtain ⟨-, -, -, rfl⟩ := step_disconnect h
      exact ⟨hnone, .inl rfl, nofun⟩
  | join =>
      obtain ⟨-, -, -, rfl⟩ := step_join h
      exact ⟨hnone, .inl rfl, nofun⟩

/-- Only steps of tasks change the world. -/
theorem step_world (hstep : s.step tools o e = some s') (hquiet : ∀ i, e ≠ .advance i) :
    s'.world = s.world := by
  cases e with
  | submit i task =>
      obtain ⟨-, -, rfl⟩ := step_submit hstep
      rfl
  | start i =>
      obtain ⟨n, task, -, rfl⟩ := step_start hstep
      rfl
  | advance i => exact absurd rfl (hquiet i)
  | finish i =>
      obtain ⟨n, task, result, status, -, -, rfl⟩ := step_finish hstep
      rfl
  | report i =>
      obtain ⟨n, outcome, -, rfl⟩ := step_report hstep
      rfl
  | exit i =>
      obtain ⟨-, -, rfl⟩ := step_exit hstep
      rfl
  | drain =>
      obtain ⟨-, rfl⟩ := step_drain hstep
      rfl
  | receive =>
      obtain ⟨n, outcome, rest, -, -, rfl⟩ := step_receive hstep
      rfl
  | giveUp =>
      obtain ⟨-, -, rfl⟩ := step_giveUp hstep
      rfl
  | disconnect =>
      obtain ⟨-, -, -, rfl⟩ := step_disconnect hstep
      rfl
  | join =>
      obtain ⟨-, -, -, rfl⟩ := step_join hstep
      rfl

/-- The other workers go on with what they do. -/
theorem getElem?_setWorker {i j : Nat} {v new : Worker σ}
    (hj : (s.setWorker i new).workers[j]? = some v) :
    (i = j ∧ v = new) ∨ (i ≠ j ∧ s.workers[j]? = some v) := by
  rw [setWorker, List.getElem?_set] at hj
  split at hj
  · next hij =>
      split at hj
      · exact .inl ⟨hij, (Option.some.inj hj).symm⟩
      · cases hj
  · next hij => exact .inr ⟨hij, hj⟩

/-! ### Histories -/

theorem run_append (first rest : List Event) :
    s.run tools o (first ++ rest) = (s.run tools o first).bind fun t => t.run tools o rest := by
  induction first generalizing s with
  | nil => rfl
  | cons e first ih =>
      rw [List.cons_append, run, run]
      cases s.step tools o e with
      | none => rfl
      | some t => exact ih

/-- A history with one more event. -/
theorem run_concat_eq_some {history : List Event} {e : Event} :
    s.run tools o (history ++ [e]) = some s' ↔
      ∃ t, s.run tools o history = some t ∧ t.step tools o e = some s' := by
  rw [run_append, Option.bind_eq_some_iff]
  refine exists_congr fun t => and_congr_right fun _ => ?_
  rw [run]
  cases t.step tools o e with
  | none => rfl
  | some u => rfl

/-- **What holds at the start and is kept by every event holds after every history.** -/
theorem run_induction {P : List Event → State σ → Prop} (hstart : P [] s)
    (hstep : ∀ history t e t', s.run tools o history = some t → P history t →
      t.step tools o e = some t' → P (history ++ [e]) t')
    {history : List Event} (hrun : s.run tools o history = some s') : P history s' := by
  induction history using List.reverseRecOn generalizing s' with
  | nil =>
      cases hrun
      exact hstart
  | append_singleton history e ih =>
      obtain ⟨t, ht, hlast⟩ := run_concat_eq_some.mp hrun
      exact hstep history t e s' ht (ih ht) hlast

/-- What is noted of the events of a history, where `note` tells what is noted of an event. -/
def along (tools : Toolchain σ) (o : MergeOptions) (note : State σ → Event → Option β) :
    State σ → List Event → List β
  | _, [] => []
  | s, e :: rest =>
    match s.step tools o e with
    | none => []
    | some t => (note s e).toList ++ along tools o note t rest

theorem along_concat {note : State σ → Event → Option β} {history : List Event} {e : Event}
    {t : State σ} (hrun : s.run tools o history = some t) (hstep : t.step tools o e = some s') :
    along tools o note s (history ++ [e]) = along tools o note s history ++ (note t e).toList := by
  induction history generalizing s with
  | nil =>
      cases hrun
      show along tools o note t [e] = (note t e).toList
      rw [along, hstep]
      exact List.append_nil _
  | cons first rest ih =>
      obtain ⟨u, hu, hrest⟩ := Option.bind_eq_some_iff.mp hrun
      rw [List.cons_append, along, along, hu]
      show (note s first).toList ++ along tools o note u (rest ++ [e]) = _
      rw [ih hrest, List.append_assoc]

end State

end CharacterArt.MergePool
