import CharacterArt.Merge.Pool
import Std.Data.TreeMap

/-!
# Pools with several workers

The states of a pool and the events that lead from one to the next.  Workers, the one who submits
and the one who drains act in any order; each event is atomic.

## Main Definitions

* `Worker`, `State` — what a worker does, and a pool between two events
* `Event`, `State.step` — what may happen, and what becomes of a pool
* `State.submitFault?` — why a pool takes no task
* `State.run` — a pool after a history of events
* `State.report` — what a pool that was drained produced

## Design Notes

A task is handed to a worker that waits, so nothing is ever queued.  A worker counts itself in
before it runs a task and out before it reports, and it goes on to the next task however the last
one ended.  It leaves only when no more tasks can come.  Whoever drains takes every outcome that is
there before giving up, so an outcome that is reported is either received or comes too late.
-/

namespace CharacterArt.MergePool

/-- What a worker does. -/
inductive Worker (σ : Type) where
  /-- It waits for a task. -/
  | idle
  /-- It has a task and does not count as running yet. -/
  | taken (number : Nat) (task : MergeTask)
  /-- It runs a task. -/
  | running (number : Nat) (task : MergeTask) (work : Job (World σ) (Except Stop TaskStatus))
  /-- It does not count as running any more and has not reported yet. -/
  | reporting (number : Nat) (outcome : TaskOutcome)
  /-- It has left. -/
  | gone

namespace Worker

variable {σ : Type}

/-- Whether a worker counts as running. -/
def isRunning : Worker σ → Bool
  | running _ _ _ => true
  | idle | taken _ _ | reporting _ _ | gone => false

/-- Whether a worker has left. -/
def isGone : Worker σ → Bool
  | gone => true
  | idle | taken _ _ | running _ _ _ | reporting _ _ => false

end Worker

/-- Who is waited for. -/
inductive Stage where
  /-- Tasks may be submitted. -/
  | accepting
  /-- Outcomes are waited for. -/
  | draining
  /-- Nobody waits any more. -/
  | closed
  deriving DecidableEq, Repr

/-- A pool between two events. -/
structure State (σ : Type) where
  world : World σ
  workers : List (Worker σ)
  /-- The tasks so far; the number of a task is its place. -/
  submitted : List MergeTask := []
  /-- How many workers count as running. -/
  inFlight : Nat := 0
  /-- The greatest number of workers that counted as running at once. -/
  peak : Nat := 0
  /-- Outcomes that were reported and not received yet, with the numbers of their tasks. -/
  channel : List (Nat × TaskOutcome) := []
  /-- The outcomes that were received, by the numbers of their tasks. -/
  received : Std.TreeMap Nat TaskOutcome := ∅
  /-- The outcomes as they came in. -/
  progress : List Progress := []
  stage : Stage := .accepting

/-- What may happen. -/
inductive Event where
  /-- A task is handed to a worker. -/
  | submit (worker : Nat) (task : MergeTask)
  /-- A worker starts with its task. -/
  | start (worker : Nat)
  /-- A worker does one step of its task. -/
  | advance (worker : Nat)
  /-- A worker has ended its task. -/
  | finish (worker : Nat)
  /-- A worker reports the outcome of its task. -/
  | report (worker : Nat)
  /-- A worker leaves. -/
  | exit (worker : Nat)
  /-- No more tasks are submitted. -/
  | drain
  /-- An outcome is received. -/
  | receive
  /-- Outcomes are not waited for any longer. -/
  | giveUp
  /-- Nobody is left who could report an outcome. -/
  | disconnect
  /-- All outcomes were received, and all workers have left. -/
  | join
  deriving DecidableEq, Repr

namespace State

variable {σ : Type}

/-- A pool that has done nothing.  It has at least one worker. -/
def start (workers : Nat) (w : World σ) : State σ where
  world := w
  workers := List.replicate (max workers 1) .idle

/-- Let a worker do something else. -/
def setWorker (s : State σ) (i : Nat) (v : Worker σ) : State σ :=
  { s with workers := s.workers.set i v }

/-- Whether outcomes are waited for and some are missing. -/
def isWaiting (s : State σ) : Bool :=
  s.stage == .draining && decide (s.received.size < s.submitted.length)

/-- Whether all workers have left. -/
def isDeserted (s : State σ) : Bool :=
  s.workers.all Worker.isGone

/-- What becomes of a pool by an event, if the event can happen. -/
def step (tools : Toolchain σ) (o : MergeOptions) (s : State σ) : Event → Option (State σ)
  | .submit i task =>
    match s.stage, s.workers[i]? with
    | .accepting, some .idle =>
      some { s.setWorker i (.taken s.submitted.length task) with
        submitted := s.submitted ++ [task] }
    | _, _ => none
  | .start i =>
    match s.workers[i]? with
    | some (.taken n task) =>
      some { s.setWorker i (.running n task (task.job tools o (scratchOf n)).run) with
        inFlight := s.inFlight + 1
        peak := max s.peak (s.inFlight + 1) }
    | _ => none
  | .advance i =>
    match s.workers[i]? with
    | some (.running n task (.step change next)) =>
      some { s.setWorker i (.running n task (next s.world)) with world := change s.world }
    | _ => none
  | .finish i =>
    match s.workers[i]? with
    | some (.running n task (.done result)) =>
      (TaskStatus.ofWork? result).map fun status =>
        { s.setWorker i (.reporting n ⟨task.outputPath, task.keys, status⟩) with
          inFlight := s.inFlight - 1 }
    | _ => none
  | .report i =>
    match s.workers[i]? with
    | some (.reporting n outcome) =>
      some { s.setWorker i .idle with channel := s.channel ++ [(n, outcome)] }
    | _ => none
  | .exit i =>
    match s.stage, s.workers[i]? with
    | .draining, some .idle | .closed, some .idle => some (s.setWorker i .gone)
    | _, _ => none
  | .drain => if s.stage = .accepting then some { s with stage := .draining } else none
  | .receive =>
    match s.channel with
    | [] => none
    | (n, outcome) :: rest =>
      if s.isWaiting then
        some { s with
          channel := rest
          received := s.received.insert n outcome
          progress := s.progress ++
            [⟨.merging, s.received.size + 1, s.submitted.length, some outcome.output⟩] }
      else
        none
  | .giveUp =>
    if s.isWaiting && s.channel.isEmpty then some { s with stage := .closed } else none
  | .disconnect =>
    if s.isWaiting && s.channel.isEmpty && s.isDeserted then some { s with stage := .closed }
    else none
  | .join =>
    if s.stage = .draining ∧ s.submitted.length ≤ s.received.size ∧ s.isDeserted then
      some { s with stage := .closed }
    else none

/-- A pool after a history of events, if they can happen in that order. -/
def run (tools : Toolchain σ) (o : MergeOptions) (s : State σ) : List Event → Option (State σ)
  | [] => some s
  | e :: rest => (s.step tools o e).bind fun s => s.run tools o rest

/-- What the pool produced for the one who drains it. -/
def report (s : State σ) : DrainReport where
  outcomes := s.submitted.mapIdx fun n t => s.received[n]?.getD (outcomeOf t none)
  peak := s.peak
  progress := s.progress

end State

end CharacterArt.MergePool
