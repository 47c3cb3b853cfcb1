/-!
# Jobs

A job is a program of steps on a state that it may share with other jobs.  Each step is atomic;
between two of its steps other jobs may change the state.

## Main Definitions

* `Job` — a program of steps that ends with a value
* `Job.act` — the job of one step
* `Job.run` — a job that nothing disturbs

## Main Results

* `Job.run_bind` — jobs one after the other run one after the other
-/

namespace CharacterArt

/-- A program of atomic steps on a shared state.  A step changes the state, and what follows
depends on the state as the step found it. -/
inductive Job (W α : Type) where
  | done (a : α)
  | step (change : W → W) (next : W → Job W α)

namespace Job

variable {W α β : Type}

/-- A job, and then the job that its value tells. -/
def bind : Job W α → (α → Job W β) → Job W β
  | done a, f => f a
  | step change next, f => step change fun w => (next w).bind f

instance : Monad (Job W) where
  pure := done
  bind := bind

/-- The job of one step. -/
def act (f : W → α × W) : Job W α :=
  step (fun w => (f w).2) fun w => done (f w).1

/-- A job that nothing disturbs: its value, and the state that it leaves. -/
def run : Job W α → W → α × W
  | done a, w => (a, w)
  | step change next, w => (next w).run (change w)

@[simp] theorem run_pure (a : α) (w : W) : (pure a : Job W α).run w = (a, w) := rfl

@[simp] theorem run_act (f : W → α × W) (w : W) : (act f).run w = f w := rfl

@[simp] theorem run_bind (j : Job W α) (f : α → Job W β) (w : W) :
    (j >>= f).run w = (f (j.run w).1).run (j.run w).2 := by
  induction j generalizing w with
  | done a => rfl
  | step change next ih => exact ih w (change w)

end Job

end CharacterArt
