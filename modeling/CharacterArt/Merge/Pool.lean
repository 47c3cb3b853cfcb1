import CharacterArt.Merge.Task
import CharacterArt.Progress

/-!
# Merge pools

A pool runs tasks on a number of workers and collects their outcomes.

## Main Definitions

* `MergePool.scratchOf` — the scratch directory of a task
* `DrainReport` — what a pool produced
* `MergePool.runInOrder` — a pool whose tasks run one after the other

## Design Notes

A task that does not end as long as the pool is waited for has no outcome of its own; it counts as
timed out.  Tasks have numbers in the order in which they are submitted, and outcomes stand in that
order.
-/

namespace CharacterArt

/-- What a pool produced. -/
structure DrainReport where
  outcomes : List TaskOutcome := []
  /-- The greatest number of tasks that ran at once. -/
  peak : Nat := 0
  /-- The outcomes as they came in. -/
  progress : List Progress := []
  deriving DecidableEq, Repr

namespace DrainReport

/-- How many outputs were written. -/
def written (r : DrainReport) : Nat :=
  r.outcomes.countP fun o => o.status == .written

/-- How many outputs were there already. -/
def cached (r : DrainReport) : Nat :=
  r.outcomes.countP fun o => o.status == .cached

/-- How many tasks failed or did not end. -/
def failed (r : DrainReport) : Nat :=
  r.outcomes.countP fun o => !o.status.isSuccess

end DrainReport

namespace MergePool

/-- The scratch directory of a task. -/
def scratchOf (number : Nat) : String :=
  "/tmp/merge-" ++ toString number

/-- The outcome of a task that ended with a status, or that did not end. -/
def outcomeOf (t : MergeTask) (status : Option TaskStatus) : TaskOutcome :=
  ⟨t.outputPath, t.keys, status.getD .timedOut⟩

/-- Run one task: its status if it ended. -/
def runTask {σ : Type} (tools : Toolchain σ) (o : MergeOptions) (number : Nat) (t : MergeTask)
    (w : World σ) : Option TaskStatus × World σ :=
  let (result, w) := (t.job tools o (scratchOf number)).run.run w
  (TaskStatus.ofWork? result, w)

/-- Run tasks one after the other, numbered from `number` on. -/
def runFrom {σ : Type} (tools : Toolchain σ) (o : MergeOptions) (number : Nat) :
    List MergeTask → World σ → List (Option TaskStatus) × World σ
  | [], w => ([], w)
  | t :: rest, w =>
    let (status, w) := runTask tools o number t w
    let (statuses, w) := runFrom tools o (number + 1) rest w
    (status :: statuses, w)

/-- The reports of the outputs whose tasks ended, in that order. -/
def progressOf (total : Nat) (ended : List String) : List Progress :=
  ended.mapIdx fun i output => ⟨.merging, i + 1, total, some output⟩

/-- A pool whose tasks run one after the other. -/
def runInOrder {σ : Type} (tools : Toolchain σ) (o : MergeOptions) (tasks : List MergeTask)
    (w : World σ) : DrainReport × World σ :=
  let (statuses, w) := runFrom tools o 0 tasks w
  let ended := (tasks.zip statuses).filterMap fun (t, status) => status.map fun _ => t.outputPath
  ({ outcomes := List.zipWith outcomeOf tasks statuses
     peak := if tasks.isEmpty then 0 else 1
     progress := progressOf tasks.length ended }, w)

end MergePool

end CharacterArt
