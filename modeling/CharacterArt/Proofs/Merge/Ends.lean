import CharacterArt.Proofs.Merge.Effects

/-!
# How work ends

Work ends well, or it stops at the first step that does.  What stops it is an error of its own or
something that a call of a tool does, and what it leaves behind then is what the steps before did.

## Main Definitions

* `Work.StopsOnly`, `Toolchain.StopsOnly` — only certain things stop work, or the calls of a tool
* `Work.FailsWithin` — work that changes nothing out of scope if it stops

## Main Results

* `Work.StopsOnly.bind`, `Work.StopsOnly.withScratch` — what stops work in several parts
* `Work.Evolves.bind_failsWithin` — what work in several parts leaves behind if it stops
* `MergeTask.stopsOnly_job`, `MergeTask.failsWithin_publish` — both for tasks
-/

namespace CharacterArt

/-! ### What stops work -/

/-- Only certain things stop a call. -/
def Call.StopsOnly {σ α : Type} (P : Stop → Prop) (c : Call σ α) : Prop :=
  ∀ w stop, (c w).1 = .error stop → P stop

/-- Only certain things stop the calls that a task makes. -/
structure Toolchain.StopsOnly {σ : Type} (P : Stop → Prop) (tools : Toolchain σ) : Prop where
  resize : ∀ source width height target, (tools.resize source width height target).StopsOnly P
  copyAlpha : ∀ base mask target, (tools.copyAlpha base mask target).StopsOnly P
  quantize : ∀ image, (tools.quantize image).StopsOnly P

namespace Work

variable {σ α β : Type} {P : Stop → Prop}

/-- Only certain things stop work. -/
def StopsOnly (P : Stop → Prop) (x : Work σ α) : Prop :=
  ∀ w stop w', x.run.run w = (.error stop, w') → P stop

theorem stopsOnly_pure (a : α) : (pure a : Work σ α).StopsOnly P := by
  intro w stop w' h
  cases h

theorem stopsOnly_call {c : Call σ α} (hc : c.StopsOnly P) : (call c).StopsOnly P := by
  intro w stop w' h
  rw [run_call] at h
  exact hc w stop (by rw [h])

/-- A look at files is stopped by an error. -/
theorem stopsOnly_look (hP : ∀ e, P (.failed e)) (f : Files → Except Error α) :
    (look f : Work σ α).StopsOnly P := by
  refine stopsOnly_call fun w stop h => ?_
  split at h
  · cases h
  · next e _ =>
      cases h
      exact hP e

/-- A change of files is stopped by an error. -/
theorem stopsOnly_change (hP : ∀ e, P (.failed e)) (f : Files → Except Error Files) :
    (change f : Work σ Unit).StopsOnly P := by
  refine stopsOnly_call fun w stop h => ?_
  split at h
  · cases h
  · next e _ =>
      cases h
      exact hP e

/-- **Work in two parts is stopped by what stops one of them.** -/
theorem StopsOnly.bind {x : Work σ α} {f : α → Work σ β} (hx : x.StopsOnly P)
    (hf : ∀ a, (f a).StopsOnly P) : (x >>= f).StopsOnly P := by
  intro w stop w' h
  rw [run_bind] at h
  match hrun : x.run.run w with
  | (.ok a, middle) =>
      rw [hrun] at h
      exact hf a middle stop w' h
  | (.error e, middle) =>
      rw [hrun] at h
      cases h
      exact hx w stop w' hrun

theorem StopsOnly.withScratch {scratch : String} {work : Work σ α} (hP : ∀ e, P (.failed e))
    (h : work.StopsOnly P) : (withScratch scratch work).StopsOnly P := by
  intro w stop w' hrun
  rw [run_withScratch] at hrun
  split at hrun
  · next e _ =>
      cases hrun
      exact hP e
  · next d _ =>
      match hwork : work.run.run { w with disk := d } with
      | (worked, middle) =>
          rw [hwork] at hrun
          cases hrun
          exact h _ _ _ hwork

/-! ### What work leaves behind -/

variable {cwd : Location} {s : Disk.Scope}

/-- Work that fails changes nothing out of scope. -/
def FailsWithin (cwd : Location) (s : Disk.Scope) (x : Work σ α) : Prop :=
  ∀ w stop w', w.disk.cwd = cwd → x.run.run w = (.error stop, w') → w.disk.Evolves s w'.disk

/-- A change of files that fails is none. -/
theorem failsWithin_change (f : Files → Except Error Files) :
    (change f : Work σ Unit).FailsWithin cwd s := by
  intro w stop w' _ hrun
  rw [change, run_call] at hrun
  split at hrun
  · cases hrun
  · cases hrun
    exact Disk.Evolves.refl s _

/-- **Work in two parts fails in scope if the first part stays there and the second one fails
there.** -/
theorem Evolves.bind_failsWithin {x : Work σ α} {f : α → Work σ β} (hx : x.Evolves cwd s)
    (hf : ∀ a, (f a).FailsWithin cwd s) : (x >>= f).FailsWithin cwd s := by
  intro w stop w' hcwd hrun
  have hfirst := hx w hcwd
  rw [run_bind] at hrun
  match hx' : x.run.run w with
  | (.ok a, middle) =>
      rw [hx'] at hrun hfirst
      exact hfirst.trans (hf a middle stop w' (hfirst.cwd.trans hcwd) hrun)
  | (.error e, middle) =>
      rw [hx'] at hrun hfirst
      cases hrun
      exact hfirst

/-- Work that only adds an answer fails as it did. -/
theorem FailsWithin.bind_pure {x : Work σ α} (hx : x.FailsWithin cwd s) (b : β) :
    (x >>= fun _ => pure b).FailsWithin cwd s := by
  intro w stop w' hcwd hrun
  rw [run_bind] at hrun
  match hx' : x.run.run w with
  | (.ok a, middle) =>
      rw [hx'] at hrun
      cases hrun
  | (.error e, middle) =>
      rw [hx'] at hrun
      cases hrun
      exact hx w _ _ hcwd hx'

/-- A look at files that ends well leaves them. -/
theorem of_run_look {f : Files → Except Error α} {a : α} {w w' : World σ}
    (hrun : (look f : Work σ α).run.run w = (.ok a, w')) : f w.disk = .ok a ∧ w = w' := by
  rw [look, run_call] at hrun
  split at hrun
  · next b hb =>
      cases hrun
      exact ⟨hb, rfl⟩
  · cases hrun

/-- A change of files that ends well is one. -/
theorem of_run_change {f : Files → Except Error Files} {w w' : World σ}
    (hrun : (change f : Work σ Unit).run.run w = (.ok (), w')) : f w.disk = .ok w'.disk := by
  rw [change, run_call] at hrun
  split at hrun
  · next d hd =>
      cases hrun
      exact hd
  · cases hrun

end Work

/-! ### Tasks -/

namespace MergeTask

variable {σ : Type} {tools : Toolchain σ} {o : MergeOptions} {scratch : String} {t : MergeTask}
  {P : Stop → Prop}

theorem stopsOnly_fitMask
    (h : ∀ source width height target, (tools.resize source width height target).StopsOnly P)
    (width height : Nat) (fitted : String) (mask : String × Nat × Nat) :
    (fitMask tools width height fitted mask).StopsOnly P := by
  unfold fitMask
  dsimp only
  split
  · exact Work.stopsOnly_pure _
  · exact (Work.stopsOnly_call (h _ _ _ _)).bind fun _ => Work.stopsOnly_pure _

section StopsOnly

variable (hP : ∀ e, P (.failed e))

include hP

theorem stopsOnly_stageMask (input : MaskInput) :
    (stageMask scratch input : Work σ _).StopsOnly P := by
  cases input with
  | asset mask => exact (Work.stopsOnly_change hP _).bind fun _ => Work.stopsOnly_pure _
  | file path => exact (Work.stopsOnly_look hP _).bind fun _ => Work.stopsOnly_pure _

variable (htools : tools.StopsOnly P)

include htools

theorem stopsOnly_stage (staged : String) (t : MergeTask) :
    (stage tools scratch staged t).StopsOnly P := by
  unfold stage
  split
  · exact Work.stopsOnly_change hP _
  · refine (Work.stopsOnly_change hP _).bind fun _ => ?_
    refine (stopsOnly_stageMask hP _).bind fun mask => ?_
    refine (stopsOnly_fitMask htools.resize _ _ _ mask).bind fun fitted => ?_
    exact Work.stopsOnly_call (htools.copyAlpha _ _ _)

theorem stopsOnly_publish : (t.publish tools o scratch).StopsOnly P := by
  have hend : (Work.change (fun d =>
      Files.copy d (Path.join scratch "out.png") (t.target o)) >>= fun _ =>
        pure TaskStatus.written : Work σ TaskStatus).StopsOnly P :=
    (Work.stopsOnly_change hP _).bind fun _ => Work.stopsOnly_pure _
  unfold publish
  refine (stopsOnly_stage hP htools _ t).bind fun _ => ?_
  split
  · exact (Work.stopsOnly_call (htools.quantize _)).bind fun _ => hend
  · exact hend

/-- **A task is stopped by an error of its own, or by what stops a call of its tool.** -/
theorem stopsOnly_job : (t.job tools o scratch).StopsOnly P := by
  unfold job
  refine (Work.stopsOnly_look hP _).bind fun present => ?_
  split
  · exact Work.stopsOnly_pure _
  · refine (Work.stopsOnly_change hP _).bind fun _ => ?_
    exact (stopsOnly_publish hP htools).withScratch hP

end StopsOnly

/-- **An output that cannot be published leaves its scratch directory changed, and nothing else**: the
copy comes last. -/
theorem failsWithin_publish (htools : tools.Tidy) (h : IsScratch scratch) {cwd : Location}
    {s : Disk.Scope} (hs : ∀ l, Path.place [] scratch <+: l → s.scratch l) :
    (t.publish tools o scratch).FailsWithin cwd s := by
  have hend : (Work.change (fun d =>
      Files.copy d (Path.join scratch "out.png") (t.target o)) >>= fun _ =>
        pure TaskStatus.written : Work σ TaskStatus).FailsWithin cwd s :=
    (Work.failsWithin_change _).bind_pure _
  unfold publish
  refine (evolves_stage htools h hs t).bind_failsWithin fun _ => ?_
  split
  · exact (evolves_call h (by decide) hs (htools.quantize _)).bind_failsWithin fun _ => hend
  · exact hend

end MergeTask

end CharacterArt
