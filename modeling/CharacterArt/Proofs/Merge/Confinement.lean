import CharacterArt.Merge.Interleaving
import CharacterArt.Proofs.Job
import CharacterArt.Proofs.Merge.Attribution
import CharacterArt.Proofs.Merge.InOrder

/-!
# What tasks may change at any time

Every single step of a task keeps to its output, to the directories on the way there and to its scratch
directory, whatever world it finds.  So whoever does the tasks, in whatever order and however far, no
other file changes.

## Main Definitions

* `Job.StaysIn` — every step of a job stays in scope
* `MergePool.merging` — what tasks may change
* `MergePool.Reaches` — the worlds that tasks may lead to, in order or in a pool

## Main Results

* `MergeTask.staysIn_job` — every step of a task stays in scope
* `MergePool.evolves_runFrom`, `MergePool.State.evolves_of_run` — tasks in order, and in a pool
* `MergePool.Reaches.exists_target` — a file that changed is the output of a task
-/

namespace CharacterArt

namespace Job

variable {σ α β : Type} {cwd : Location} {s : Disk.Scope} {j : Job (World σ) α} {w : World σ}

/-- Every step of a job stays in scope, whatever world it finds. -/
inductive StaysIn (cwd : Location) (s : Disk.Scope) : Job (World σ) α → Prop where
  | done (a : α) : StaysIn cwd s (.done a)
  | step {change : World σ → World σ} {next : World σ → Job (World σ) α}
      (evolves : ∀ w : World σ, w.disk.cwd = cwd → w.disk.Evolves s (change w).disk)
      (rest : ∀ w, StaysIn cwd s (next w)) : StaysIn cwd s (.step change next)

/-- **Jobs one after the other stay in scope if both do.** -/
theorem StaysIn.bind {f : α → Job (World σ) β} (hj : j.StaysIn cwd s)
    (hf : ∀ a, (f a).StaysIn cwd s) : (j >>= f).StaysIn cwd s := by
  induction hj with
  | done a => exact hf a
  | step evolves rest ih => exact .step evolves ih

/-- What is left of a job stays in scope. -/
theorem StaysIn.after (hj : j.StaysIn cwd s) (found : List (World σ)) :
    (j.after found).StaysIn cwd s := by
  induction hj generalizing found with
  | done a => exact .done a
  | step evolves rest ih =>
      cases found with
      | nil => exact .step evolves rest
      | cons w found => exact ih w found

/-- A job that nothing disturbs changes nothing out of scope. -/
theorem StaysIn.run (hj : j.StaysIn cwd s) (hcwd : w.disk.cwd = cwd) :
    w.disk.Evolves s (j.run w).2.disk := by
  induction hj generalizing w with
  | done a => exact .refl s w.disk
  | @step change next evolves rest ih =>
      have hfirst := evolves w hcwd
      exact hfirst.trans (ih w (hfirst.cwd.trans hcwd))

end Job

/-! ### Work -/

namespace Work

variable {σ α β : Type} {cwd : Location} {s : Disk.Scope}

theorem staysIn_pure (a : α) : (pure a : Work σ α).run.StaysIn cwd s :=
  .done _

/-- Work in two parts stays in scope if both parts do. -/
theorem staysIn_bind {x : Work σ α} {f : α → Work σ β} (hx : x.run.StaysIn cwd s)
    (hf : ∀ a, (f a).run.StaysIn cwd s) : (x >>= f).run.StaysIn cwd s := by
  refine Job.StaysIn.bind hx fun result => ?_
  cases result with
  | ok a => exact hf a
  | error e => exact .done _

/-- A call is one step. -/
theorem staysIn_call {c : Call σ α} (h : (call c).Evolves cwd s) : (call c).run.StaysIn cwd s :=
  .step h fun _ => .done _

theorem staysIn_look (f : Files → Except Error α) : (look f : Work σ α).run.StaysIn cwd s :=
  staysIn_call (evolves_look f)

theorem staysIn_change {f : Files → Except Error Files}
    (hf : ∀ d d', d.cwd = cwd → f d = .ok d' → d.Evolves s d') :
    (change f : Work σ Unit).run.StaysIn cwd s :=
  staysIn_call (evolves_change hf)

/-- Work in a scratch directory stays in scope if it does so in there. -/
theorem staysIn_withScratch {scratch : String} {work : Work σ α} (h : IsScratch scratch)
    (hs : ∀ l, Path.place [] scratch <+: l → s.scratch l)
    (hways : ∀ l, Path.Passes cwd scratch l → s.ways l) (hwork : work.run.StaysIn cwd s) :
    (withScratch scratch work).run.StaysIn cwd s := by
  obtain ⟨name, hplace, hplace'⟩ := h.place_eq cwd
  have hne : Path.place cwd scratch ≠ [] := by
    rw [hplace]
    exact nofun
  have hbelow : ∀ m, Path.place cwd scratch <+: m → s.scratch m := by
    intro m hm
    rw [hplace, ← hplace'] at hm
    exact hs m hm
  refine staysIn_bind (staysIn_change fun d d' hcwd hd => ?_) fun _ => ?_
  · refine Disk.evolves_makeDirs (Files.makeDirs_eq_ok_iff.mp hd) fun m hm => ?_
    rw [hcwd] at hm
    rcases hm with hm | rfl
    · exact .inl (hways m hm)
    · exact .inr (hbelow _ (List.prefix_refl _))
  · refine Job.StaysIn.bind hwork fun result => Job.StaysIn.bind ?_ fun _ => .done _
    refine .step (fun w hcwd => ?_) fun _ => .done _
    exact Files.evolves_removeTree (by rwa [hcwd]) (by rwa [hcwd])

end Work

/-! ### Tasks -/

namespace MergeTask

variable {σ : Type} {tools : Toolchain σ} {o : MergeOptions} {scratch : String} {t : MergeTask}
  {cwd : Location} {s : Disk.Scope}

section Staging

variable (h : IsScratch scratch) (hs : ∀ l, Path.place [] scratch <+: l → s.scratch l)

include h hs

theorem staysIn_stageMask (input : MaskInput) :
    (stageMask scratch input : Work σ _).run.StaysIn cwd s := by
  cases input with
  | asset mask =>
      refine Work.staysIn_bind (Work.staysIn_call ?_) fun _ => Work.staysIn_pure _
      exact evolves_writePicture h (by decide) hs mask.picture
  | file path =>
      exact Work.staysIn_bind (Work.staysIn_look _) fun _ => Work.staysIn_pure _

theorem staysIn_fitMask (htools : tools.Tidy) {name : String} (hname : Path.IsName name)
    (width height : Nat) (mask : String × Nat × Nat) :
    (fitMask tools width height (Path.join scratch name) mask).run.StaysIn cwd s := by
  obtain ⟨path, w, k⟩ := mask
  unfold fitMask
  dsimp only
  split
  · exact Work.staysIn_pure path
  · refine Work.staysIn_bind (Work.staysIn_call ?_) fun _ => Work.staysIn_pure _
    exact evolves_call h hname hs (htools.resize _ _ _ _)

theorem staysIn_stage (htools : tools.Tidy) (t : MergeTask) :
    (stage tools scratch (Path.join scratch "out.png") t).run.StaysIn cwd s := by
  unfold stage
  split
  · exact Work.staysIn_call (evolves_writePicture h (by decide) hs _)
  · refine Work.staysIn_bind (Work.staysIn_call (evolves_writePicture h (by decide) hs _))
      fun _ => ?_
    refine Work.staysIn_bind (staysIn_stageMask h hs _) fun mask => ?_
    refine Work.staysIn_bind (staysIn_fitMask h hs htools (by decide) _ _ mask) fun fitted => ?_
    exact Work.staysIn_call (evolves_call h (by decide) hs (htools.copyAlpha _ _ _))

theorem staysIn_publish (htools : tools.Tidy) (hfiles : s.files (Path.place cwd (t.target o))) :
    (t.publish tools o scratch).run.StaysIn cwd s := by
  have hend : (Work.change (fun d =>
      Files.copy d (Path.join scratch "out.png") (t.target o)) >>= fun _ =>
        pure TaskStatus.written : Work σ TaskStatus).run.StaysIn cwd s := by
    refine Work.staysIn_bind (Work.staysIn_change fun d d' hcwd hd => ?_)
      fun _ => Work.staysIn_pure _
    refine Disk.evolves_copy (Files.copy_eq_ok_iff.mp hd) (.inl ?_)
    rwa [hcwd]
  unfold publish
  refine Work.staysIn_bind (staysIn_stage h hs htools t) fun _ => ?_
  split
  · refine Work.staysIn_bind (Work.staysIn_call ?_) fun _ => hend
    exact evolves_call h (by decide) hs (htools.quantize _)
  · exact hend

end Staging

/-- **Every step of a task stays in scope**: it changes nothing but the output, the directories on the
way there and the scratch directory. -/
theorem staysIn_job (htools : tools.Tidy) (h : IsScratch scratch) (cwd : Location) :
    (t.job tools o scratch).run.StaysIn cwd (producingIn scratch cwd (· = t.target o)) := by
  unfold job
  refine Work.staysIn_bind (Work.staysIn_look _) fun present => ?_
  split
  · exact Work.staysIn_pure _
  · refine Work.staysIn_bind (Work.staysIn_change fun d d' hcwd hd => ?_) fun _ => ?_
    · refine Disk.evolves_makeAbove (Files.makeDirs_eq_ok_iff.mp hd) fun m hm => .inl (.inl ?_)
      rw [hcwd] at hm
      exact ⟨_, rfl, hm⟩
    · refine Work.staysIn_withScratch h (fun _ => id) (fun l hl => .inr ⟨scratch, h, hl⟩) ?_
      exact staysIn_publish h (fun _ => id) htools ⟨_, rfl, rfl⟩

end MergeTask

/-! ### Passes -/

namespace MergePool

variable {σ : Type} {tools : Toolchain σ} {o : MergeOptions} {tasks more : List MergeTask}
  {cwd : Location} {d d' : Files} {w v : World σ}

/-- What tasks may change: their outputs, the directories on the ways there, and whatever lies in a
scratch directory. -/
def merging (o : MergeOptions) (cwd : Location) (tasks : List MergeTask) : Disk.Scope :=
  { producing cwd (fun path => ∃ t ∈ tasks, t.target o = path) with scratch := InScratch }

/-- More tasks may change more. -/
theorem evolves_merging_mono (h : d.Evolves (merging o cwd tasks) d')
    (hmore : ∀ t ∈ tasks, t ∈ more) : d.Evolves (merging o cwd more) d' := by
  have houtputs : ∀ {path}, (∃ t ∈ tasks, t.target o = path) → ∃ t ∈ more, t.target o = path :=
    fun ⟨t, ht, hpath⟩ => ⟨t, hmore t ht, hpath⟩
  refine h.mono (fun _ => id) ?_ ?_
  · rintro l ⟨path, hpath, hl⟩
    exact .inl ⟨path, houtputs hpath, hl⟩
  · rintro l (⟨path, hpath, hl⟩ | hl)
    · exact .inl (.inl ⟨path, houtputs hpath, hl⟩)
    · exact .inl (.inr hl)

/-- What one task changes, tasks may change of which it is one. -/
theorem evolves_merging_of_mem {t : MergeTask} {scratch : String} (h : IsScratch scratch)
    (ht : t ∈ tasks) (hd : d.Evolves (producingIn scratch cwd (· = t.target o)) d') :
    d.Evolves (merging o cwd tasks) d' := by
  refine hd.mono (fun l hl => ⟨scratch, h, hl⟩) ?_ ?_
  · rintro l ⟨path, rfl, hl⟩
    exact .inl ⟨_, ⟨t, ht, rfl⟩, hl⟩
  · rintro l (⟨path, rfl, hl⟩ | hl)
    · exact .inl (.inl ⟨_, ⟨t, ht, rfl⟩, hl⟩)
    · exact .inl (.inr hl)

/-- **Tasks in order change nothing else.** -/
theorem evolves_runFrom (htools : tools.Tidy) (n : Nat) (w : World σ) :
    w.disk.Evolves (merging o w.disk.cwd tasks) (runFrom tools o n tasks w).2.disk := by
  induction tasks generalizing n w with
  | nil => exact .refl _ w.disk
  | cons t rest ih =>
      rw [runFrom_cons]
      have hfirst := (MergeTask.staysIn_job (t := t) (o := o) htools (.merge n) w.disk.cwd).run rfl
      have hrest := ih (n + 1) ((t.job tools o (scratchOf n)).run.run w).2
      rw [hfirst.cwd] at hrest
      exact (evolves_merging_of_mem (.merge n) List.mem_cons_self hfirst).trans
        (evolves_merging_mono hrest fun u => List.mem_cons_of_mem t)

/-- **The tasks of a pool change nothing else**, however far they got. -/
theorem State.evolves_of_run {s : State σ} {workers : Nat} {history : List Event}
    (htools : tools.Tidy) (hrun : (start workers w).run tools o history = some s) :
    w.disk.Evolves (merging o w.disk.cwd s.submitted) s.world.disk := by
  refine run_induction (P := fun _ s =>
    w.disk.Evolves (merging o w.disk.cwd s.submitted) s.world.disk) (.refl _ w.disk) ?_ hrun
  intro history t e t' hrun h hstep
  by_cases hadvance : ∃ i, e = .advance i
  · obtain ⟨i, rfl⟩ := hadvance
    obtain ⟨n, task, change, next, hworker, rfl⟩ := step_advance hstep
    obtain ⟨htask, hwork⟩ := (attributed_of_run hrun).workers i _ hworker
    have hstays := (MergeTask.staysIn_job (t := task) (o := o) htools (.merge n) w.disk.cwd).after
      (found tools o n (start workers w) history)
    rw [hwork] at hstays
    cases hstays with
    | step evolves rest =>
        exact h.trans (evolves_merging_of_mem (.merge n) (List.mem_of_getElem? htask)
          (evolves t.world h.cwd))
  · have hquiet : ∀ i, e ≠ .advance i := fun i he => hadvance ⟨i, he⟩
    rw [step_world hstep hquiet]
    refine evolves_merging_mono h fun task htask => ?_
    rw [(step_frame hstep).1]
    exact List.mem_append_left _ htask

/-- The worlds that tasks may lead to: in order, and in a pool with any number of workers, at any time,
after any of its events. -/
inductive Reaches (tools : Toolchain σ) (o : MergeOptions) (tasks : List MergeTask) (w : World σ) :
    World σ → Prop where
  | inOrder : Reaches tools o tasks w (runInOrder tools o tasks w).2
  | pooled {workers : Nat} {history : List Event} {s : State σ}
      (hrun : (State.start workers w).run tools o history = some s)
      (hsubmitted : s.submitted <+: tasks) : Reaches tools o tasks w s.world

/-- Tasks change nothing else, whoever does them. -/
theorem Reaches.evolves (htools : tools.Tidy) (h : Reaches tools o tasks w v) :
    w.disk.Evolves (merging o w.disk.cwd tasks) v.disk := by
  cases h with
  | inOrder =>
      rw [(runInOrder_eq tools o tasks w).2]
      exact evolves_runFrom htools 0 w
  | pooled hrun hsubmitted =>
      exact evolves_merging_mono (State.evolves_of_run htools hrun) fun t ht => hsubmitted.subset ht

/-- **A file that was created or overwritten is the output of a task**, unless it lies in a scratch
directory. -/
theorem Reaches.exists_target (htools : tools.Tidy) (h : Reaches tools o tasks w v) {l : Location}
    {content : Content} (hscratch : ¬ InScratch l) (hfile : v.disk.node? l = some (.file content))
    (hchanged : w.disk.node? l ≠ some (.file content)) :
    ∃ t ∈ tasks, l = Path.place w.disk.cwd (t.target o) := by
  cases (h.evolves htools).change l with
  | keep hkeep => exact absurd (hkeep.symm.trans hfile) hchanged
  | scratch hin => exact absurd hin hscratch
  | make _ _ hdirectory => exact absurd (hdirectory.symm.trans hfile) nofun
  | write hwritten =>
      obtain ⟨path, ⟨t, ht, rfl⟩, rfl⟩ := hwritten
      exact ⟨t, ht, rfl⟩

end MergePool

end CharacterArt
