import CharacterArt.Proofs.Merge.Independence
import CharacterArt.Proofs.Merge.Targets

/-!
# Tasks that share nothing but directories

Tasks of different outputs do not quite keep out of each other's way: whoever comes first makes the
directories that they have in common.  Nobody can tell who it was.  An output is there or not no
matter which directories were made, and making a directory ends in one way whether or not others
have made some of the directories above.  From then on a task sees nothing of the others.

So a task is always in one of four phases: it has not looked for its output yet, or it has not made
its directories yet, or these are there and the rest of it comes to what the whole task would have
come to at the start, or it has ended and has left what it would have left alone.

## Main Definitions

* `MergePool.Neighbors` — tasks that share nothing but directories
* `MergePool.Phase` — how far a task is
* `MergePool.Phases` — each task is in one of its phases, and every new directory is somebody's

## Main Results

* `MergePool.Phase.step`, `MergePool.Phase.later` — a step of the task itself, and of another one
* `MergePool.phases_of_schedule` — so it is in every schedule
* `MergePool.Neighbors.confluent` — all schedules come to the same
-/

namespace CharacterArt

/-! ### Tasks in two parts -/

namespace MergeTask

variable {σ : Type} {tools : Toolchain σ} {o : MergeOptions} {scratch : String} {t : MergeTask}

/-- What a task does that needs to produce its output. -/
def produce (tools : Toolchain σ) (o : MergeOptions) (scratch : String) (t : MergeTask) :
    Work σ TaskStatus := do
  Work.change fun d => Files.makeDirs d ((Path.parent (t.target o)).getD "")
  Work.withScratch scratch (t.publish tools o scratch)

/-- A task looks for its output first. -/
theorem job_eq_step (tools : Toolchain σ) (o : MergeOptions) (scratch : String) (t : MergeTask) :
    (t.job tools o scratch).run = .step id fun w =>
      if w.disk.exists? (t.target o) && !o.force then .done (.ok .cached)
      else (t.produce tools o scratch).run := by
  refine congrArg₂ Job.step rfl (funext fun w => ?_)
  show (if w.disk.exists? (t.target o) && !o.force then pure TaskStatus.cached
    else t.produce tools o scratch : Work σ TaskStatus).run = _
  split <;> rfl

/-- A task that needs to produce its output makes the directory of the output first. -/
theorem produce_eq_step (ht : t.IsNamed) (tools : Toolchain σ) (o : MergeOptions) (scratch : String) :
    (t.produce tools o scratch).run = .step
      (fun w =>
        match Files.makeDirs w.disk (Path.join o.root t.directory) with
        | .ok d => { w with disk := d }
        | .error _ => w)
      fun w =>
        match Files.makeDirs w.disk (Path.join o.root t.directory) with
        | .ok _ => (Work.withScratch scratch (t.publish tools o scratch)).run
        | .error e => .done (.error (.failed e)) := by
  rw [produce, parent_target ht]
  generalize Path.join o.root t.directory = above
  refine congrArg₂ Job.step (funext fun w => ?_) (funext fun w => ?_)
  · cases hmade : Files.makeDirs w.disk above <;> simp only [hmade]
  · cases hmade : Files.makeDirs w.disk above <;> simp only [hmade] <;> rfl

end MergeTask

namespace MergePool

variable {σ : Type} {tools : Toolchain σ} {o : MergeOptions} {tasks : List MergeTask}
  {w v v' : World σ} {m n : Nat} {t u : MergeTask} {l : Location}
  {j : Job (World σ) (Except Stop TaskStatus)} {change : World σ → World σ}
  {next : World σ → Job (World σ) (Except Stop TaskStatus)}

/-! ### Neighbors -/

/-- Tasks that share nothing but directories: no two have one output, they are named by single steps
of paths, and none takes a file as its mask.  No scratch directory is there yet, but the directory
for them is.  Outputs that are there are found there, and none lies on the way to the directory of
all outputs, if that is not a directory yet. -/
structure Neighbors (o : MergeOptions) (tasks : List MergeTask) (d : Files) : Prop where
  cwd : d.node? d.cwd = some .directory
  bare : d.Lacks InScratch
  temporary : d.node? ["tmp"] = some .directory
  named : ∀ t ∈ tasks, t.IsNamed
  unmasked : ∀ t ∈ tasks, ∀ path, t.mask ≠ some (.file path)
  distinct : (tasks.map MergeTask.outputPath).Nodup
  avoids : ∀ t ∈ tasks, AvoidsScratch d.cwd (t.target o)
  reached : ∀ t ∈ tasks, d.node? (Path.place d.cwd (t.target o)) ≠ none →
    ∀ l, Path.Passes d.cwd (t.target o) l → d.node? l = some .directory
  clear : ∀ t ∈ tasks, Path.Passes d.cwd o.root (Path.place d.cwd (t.target o)) →
    d.node? (Path.place d.cwd (t.target o)) = some .directory

/-- What belongs to one task alone: the place of its output, and its scratch directory. -/
def Owns (o : MergeOptions) (cwd : Location) (n : Nat) (t : MergeTask) (l : Location) : Prop :=
  l = Path.place cwd (t.target o) ∨ Path.place [] (scratchOf n) <+: l

/-- What a task may change. -/
def scopeOf (o : MergeOptions) (cwd : Location) (n : Nat) (t : MergeTask) : Disk.Scope :=
  producingIn (scratchOf n) cwd (· = t.target o)

namespace Neighbors

/-- The place of an output and the way to it lie in no scratch directory. -/
theorem not_inScratch (h : Neighbors o tasks w.disk) (ht : tasks[n]? = some t)
    (hl : Path.Visits w.disk.cwd (t.target o) l) : ¬ InScratch l :=
  h.avoids t (List.mem_of_getElem? ht) l hl

/-- An output in whose place the way to another one leads on is a directory. -/
theorem directory_of_place (h : Neighbors o tasks w.disk) (ht : tasks[m]? = some t)
    (hu : tasks[n]? = some u)
    (hl : Path.Passes w.disk.cwd (t.target o) (Path.place w.disk.cwd (u.target o))) :
    w.disk.node? (Path.place w.disk.cwd (u.target o)) = some .directory := by
  have hmem := List.mem_of_getElem? hu
  exact h.clear u hmem <|
    MergeTask.passes_of_passes_target (h.named u hmem) (h.named t (List.mem_of_getElem? ht)) hl

/-- Different tasks have outputs in different places. -/
theorem place_ne (h : Neighbors o tasks w.disk) (ht : tasks[m]? = some t) (hu : tasks[n]? = some u)
    (hmn : m ≠ n) :
    Path.place w.disk.cwd (t.target o) ≠ Path.place w.disk.cwd (u.target o) := by
  intro heq
  have hpath := MergeTask.outputPath_eq_of_place (h.named t (List.mem_of_getElem? ht))
    (h.named u (List.mem_of_getElem? hu)) heq
  have hm : m < (tasks.map MergeTask.outputPath).length := by
    rw [List.length_map]
    exact (List.getElem?_eq_some_iff.mp ht).1
  refine hmn ((List.getElem?_inj hm h.distinct).mp ?_)
  rw [List.getElem?_map, List.getElem?_map, ht, hu, Option.map_some, Option.map_some, hpath]

/-- **An output is found or not whatever directories were made**, as long as its place is as it was. -/
theorem exists?_eq (h : Neighbors o tasks w.disk) (ht : tasks[n]? = some t)
    (hcwd : v.disk.cwd = w.disk.cwd) (hkeeps : KeepsDirectories w.disk v.disk)
    (hplace : v.disk.node? (Path.place w.disk.cwd (t.target o)) =
      w.disk.node? (Path.place w.disk.cwd (t.target o))) :
    v.disk.exists? (t.target o) = w.disk.exists? (t.target o) := by
  rw [Bool.eq_iff_iff, Disk.exists?, Disk.exists?, Option.isSome_iff_exists,
    Option.isSome_iff_exists]
  refine exists_congr fun node => ?_
  rw [Disk.find?_eq_some_iff, Disk.find?_eq_some_iff, hcwd, hplace]
  refine and_congr_left fun hnode => and_congr_right fun _ => ?_
  have hway : ∀ l, Path.Passes w.disk.cwd (t.target o) l → w.disk.node? l = some .directory :=
    h.reached t (List.mem_of_getElem? ht) (by rw [hnode]; exact Option.some_ne_none node)
  exact ⟨fun _ => hway, fun _ l hl => hkeeps l (hway l hl)⟩

/-- **What belongs to a task does not change by a step of another one.** -/
theorem owned_eq (h : Neighbors o tasks w.disk) (ht : tasks[m]? = some t) (hu : tasks[n]? = some u)
    (hmn : m ≠ n) (hkeeps : KeepsDirectories w.disk v.disk)
    (hevolves : v.disk.Evolves (scopeOf o w.disk.cwd m t) v'.disk)
    (hl : Owns o w.disk.cwd n u l) : v'.disk.node? l = v.disk.node? l := by
  cases hevolves.change l with
  | keep hkeep => exact hkeep
  | scratch hbelow =>
      exfalso
      rcases hl with rfl | hl
      · exact h.not_inScratch hu (.inr rfl) ⟨_, .merge m, hbelow⟩
      · exact hmn (eq_of_isPrefix_scratchOf hbelow hl)
  | make hway hnone =>
      have hdirectory : w.disk.node? l = some .directory := by
        rcases hway with ⟨path, rfl, hway⟩ | ⟨scratch, hscratch, hway⟩
        · rcases hl with rfl | hl
          · exact h.directory_of_place ht hu hway
          · exact absurd ⟨_, .merge n, hl⟩ (h.not_inScratch ht (.inl hway))
        · exact hscratch.directory_of_passes h.temporary hway
      rw [hkeeps l hdirectory] at hnone
      cases hnone
  | write hfile =>
      obtain ⟨path, rfl, rfl⟩ := hfile
      exfalso
      rcases hl with hl | hl
      · exact h.place_ne ht hu hmn hl
      · exact h.not_inScratch ht (.inr rfl) ⟨_, .merge n, hl⟩

end Neighbors

/-! ### Phases of a task -/

/-- How far a task is, with some of its work left.  At first nothing has changed that belongs to
it.  Once its directories are there, the rest comes to what all of the work would have come to at
the start.  In the end it has left what it would have left alone. -/
inductive Phase (tools : Toolchain σ) (o : MergeOptions) (w : World σ) (n : Nat) (t : MergeTask)
    (v : World σ) : Job (World σ) (Except Stop TaskStatus) → Prop where
  | fresh
      (untouched : ∀ l, Owns o w.disk.cwd n t l → v.disk.node? l = w.disk.node? l) :
      Phase tools o w n t v (workOf tools o n t)
  | needed
      (untouched : ∀ l, Owns o w.disk.cwd n t l → v.disk.node? l = w.disk.node? l)
      (missing : (w.disk.exists? (t.target o) && !o.force) = false) :
      Phase tools o w n t v (t.produce tools o (scratchOf n)).run
  | settled {j : Job (World σ) (Except Stop TaskStatus)}
      (isLocal : j.IsLocal w.disk.cwd (scopeOf o w.disk.cwd n t)
        (t.Sees o (scratchOf n) w.disk.cwd))
      (ways : ∀ l, Path.Passes w.disk.cwd (t.target o) l → v.disk.node? l = some .directory)
      (result : (j.run v).1 = ((workOf tools o n t).run w).1)
      (agrees : ((workOf tools o n t).run w).2.disk.AgreesOn (t.Sees o (scratchOf n) w.disk.cwd)
        (j.run v).2.disk) :
      Phase tools o w n t v j
  | ended {a : Except Stop TaskStatus}
      (result : a = ((workOf tools o n t).run w).1)
      (owned : ∀ l, Owns o w.disk.cwd n t l →
        v.disk.node? l = ((workOf tools o n t).run w).2.disk.node? l)
      (made : ∀ l, Path.Passes w.disk.cwd (t.target o) l →
        ((workOf tools o n t).run w).2.disk.node? l = some .directory →
          v.disk.node? l = some .directory) :
      Phase tools o w n t v (.done a)

namespace Phase

/-- **A step of another task leaves a task in its phase.** -/
theorem later (hphase : Phase tools o w n u v j) (h : Neighbors o tasks w.disk)
    (ht : tasks[m]? = some t) (hu : tasks[n]? = some u) (hmn : m ≠ n)
    (hcwd : v.disk.cwd = w.disk.cwd) (hkeeps : KeepsDirectories w.disk v.disk)
    (hevolves : v.disk.Evolves (scopeOf o w.disk.cwd m t) v'.disk) : Phase tools o w n u v' j := by
  have howned : ∀ l, Owns o w.disk.cwd n u l → v'.disk.node? l = v.disk.node? l := fun l =>
    h.owned_eq ht hu hmn hkeeps hevolves
  have hways : ∀ l, Path.Passes w.disk.cwd (u.target o) l → v.disk.node? l = some .directory →
      v'.disk.node? l = some .directory := fun l hl =>
    hevolves.directory fun hbelow => h.not_inScratch hu (.inl hl) ⟨_, .merge m, hbelow⟩
  cases hphase with
  | fresh untouched => exact .fresh fun l hl => (howned l hl).trans (untouched l hl)
  | needed untouched missing =>
      exact .needed (fun l hl => (howned l hl).trans (untouched l hl)) missing
  | settled isLocal ways result agrees =>
      have hsees : v.disk.AgreesOn (u.Sees o (scratchOf n) w.disk.cwd) v'.disk := by
        refine ⟨hevolves.cwd, fun l hl => ?_⟩
        rcases hl with (hl | rfl) | ⟨path, hpath, -⟩ | hl | hl
        · rw [hways l hl (ways l hl), ways l hl]
        · exact howned _ (.inl rfl)
        · exact absurd hpath (h.unmasked u (List.mem_of_getElem? hu) path)
        · have hdirectory := hkeeps l ((IsScratch.merge n).directory_of_passes h.temporary hl)
          have hkept := hevolves.directory (fun hbelow =>
            InScratch.not_passes (.merge n) hl ⟨_, .merge m, hbelow⟩) hdirectory
          rw [hkept, hdirectory]
        · exact howned l (.inr hl)
      obtain ⟨hresult, hdisk⟩ := isLocal.run_agrees hcwd hsees
      exact .settled isLocal (fun l hl => hways l hl (ways l hl)) (hresult.trans result)
        (agrees.trans hdisk)
  | ended result owned made =>
      exact .ended result (fun l hl => (howned l hl).trans (owned l hl)) fun l hl hd =>
        hways l hl (made l hl hd)

/-- A task that looks for its output has ended, or it needs to produce the output. -/
theorem look (h : Neighbors o tasks w.disk) (ht : tasks[n]? = some t)
    (hcwd : v.disk.cwd = w.disk.cwd) (hkeeps : KeepsDirectories w.disk v.disk)
    (untouched : ∀ l, Owns o w.disk.cwd n t l → v.disk.node? l = w.disk.node? l) :
    Phase tools o w n t v (if v.disk.exists? (t.target o) && !o.force then .done (.ok .cached)
      else (t.produce tools o (scratchOf n)).run) := by
  rw [h.exists?_eq ht hcwd hkeeps (untouched _ (.inl rfl))]
  split
  · next hfound =>
      have halone : (workOf tools o n t).run w = (.ok .cached, w) := by
        rw [workOf, MergeTask.run_job, if_pos hfound]
      refine .ended ?_ (fun l hl => ?_) fun l hl hd => ?_
      · rw [halone]
      · rw [halone, untouched l hl]
      · rw [halone] at hd
        exact hkeeps l hd
  · next hmissing => exact .needed untouched (Bool.eq_false_iff.mpr hmissing)

/-- What a task that needs to produce its output would have done at the start. -/
theorem run_of_missing (hnamed : t.IsNamed) (n : Nat)
    (missing : (w.disk.exists? (t.target o) && !o.force) = false) :
    (workOf tools o n t).run w =
      match Files.makeDirs w.disk (Path.join o.root t.directory) with
      | .error e => (.error (.failed e), w)
      | .ok d => (Work.withScratch (scratchOf n) (t.publish tools o (scratchOf n))).run.run
          { w with disk := d } := by
  have hrun := MergeTask.run_job tools o (scratchOf n) t w
  rw [missing, if_neg Bool.false_ne_true, MergeTask.parent_target hnamed] at hrun
  refine hrun.trans ?_
  cases Files.makeDirs w.disk (Path.join o.root t.directory) <;> rfl

/-- Once the directories were made, a task sees what it would have seen at the start. -/
theorem agreesOn_of_makeDirs (h : Neighbors o tasks w.disk) (ht : tasks[n]? = some t)
    (hcwd : v.disk.cwd = w.disk.cwd) (hkeeps : KeepsDirectories w.disk v.disk)
    (untouched : ∀ l, Owns o w.disk.cwd n t l → v.disk.node? l = w.disk.node? l) {d d' : Files}
    (hmade : Files.makeDirs w.disk (Path.join o.root t.directory) = .ok d)
    (hmade' : Files.makeDirs v.disk (Path.join o.root t.directory) = .ok d') :
    d.AgreesOn (t.Sees o (scratchOf n) w.disk.cwd) d' := by
  have hnamed := h.named t (List.mem_of_getElem? ht)
  obtain ⟨hd, hway, hother⟩ := MergeTask.node?_of_makeDirs hnamed hmade
  obtain ⟨hd', hway', hother'⟩ := MergeTask.node?_of_makeDirs hnamed hmade'
  rw [hcwd] at hd' hway' hother'
  refine ⟨hd'.trans hd.symm, fun l hl => ?_⟩
  by_cases hpasses : Path.Passes w.disk.cwd (t.target o) l
  · rw [hway' l hpasses, hway l hpasses]
  · rw [hother' l hpasses, hother l hpasses]
    rcases hl with (hl | rfl) | ⟨path, hpath, -⟩ | hl | hl
    · exact absurd hl hpasses
    · exact untouched _ (.inl rfl)
    · exact absurd hpath (h.unmasked t (List.mem_of_getElem? ht) path)
    · have hdirectory := (IsScratch.merge n).directory_of_passes h.temporary hl
      rw [hkeeps l hdirectory, hdirectory]
    · exact untouched l (.inr hl)

/-- **A task that makes the directory of its output** fails as it would have failed at the start, or
the rest of it comes to what it would have come to. -/
theorem makeDirs_cases (htools : tools.Tidy) (hdet : tools.Deterministic)
    (h : Neighbors o tasks w.disk) (ht : tasks[n]? = some t) (hkeeps : KeepsDirectories w.disk v.disk)
    (hgains : w.disk.Gains (Path.Passes w.disk.cwd (t.target o)) v.disk)
    (untouched : ∀ l, Owns o w.disk.cwd n t l → v.disk.node? l = w.disk.node? l)
    (missing : (w.disk.exists? (t.target o) && !o.force) = false) :
    (∃ e, Files.makeDirs v.disk (Path.join o.root t.directory) = .error e ∧
        Phase tools o w n t v (.done (.error (.failed e)))) ∨
      ∃ d, Files.makeDirs v.disk (Path.join o.root t.directory) = .ok d ∧
        Phase tools o w n t { v with disk := d }
          (Work.withScratch (scratchOf n) (t.publish tools o (scratchOf n))).run ∧
        ∀ l, Path.Passes w.disk.cwd (t.target o) l →
          ((workOf tools o n t).run w).2.disk.node? l = some .directory := by
  have hnamed := h.named t (List.mem_of_getElem? ht)
  have halone : (workOf tools o n t).run w = _ := run_of_missing hnamed n missing
  have hcwd : v.disk.node? v.disk.cwd = some .directory := by
    rw [hgains.cwd_eq]
    exact hkeeps _ h.cwd
  rcases Files.makeDirs_cases hgains (hnamed.directory.isEmpty_join o.root)
    (Path.namedSegments_join hnamed.directory o.root) h.cwd hcwd
    (fun l => (MergeTask.passes_target_iff hnamed o).mpr) with ⟨e, hd, hd'⟩ | ⟨d, d', hd, hd'⟩
  · rw [hd] at halone
    refine .inl ⟨e, hd', .ended ?_ (fun l hl => ?_) fun l hl => ?_⟩
    · rw [halone]
    · rw [halone, untouched l hl]
    · rw [halone]
      exact hkeeps l
  · rw [hd] at halone
    have hlocal : (Work.withScratch (scratchOf n) (t.publish tools o (scratchOf n))).run.IsLocal
        w.disk.cwd (scopeOf o w.disk.cwd n t) (t.Sees o (scratchOf n) w.disk.cwd) :=
      MergeTask.isLocal_withScratch_publish htools hdet (.merge n) w.disk.cwd
    obtain ⟨hcwd, hway, -⟩ := MergeTask.node?_of_makeDirs hnamed hd
    obtain ⟨-, hway', -⟩ := MergeTask.node?_of_makeDirs hnamed hd'
    rw [hgains.cwd_eq] at hway'
    have hsees : ({ w with disk := d } : World σ).disk.AgreesOn
        (t.Sees o (scratchOf n) w.disk.cwd) ({ v with disk := d' } : World σ).disk :=
      agreesOn_of_makeDirs h ht hgains.cwd_eq hkeeps untouched hd hd'
    obtain ⟨hresult, hdisk⟩ := hlocal.run_agrees hcwd hsees
    refine .inr ⟨d', hd', .settled hlocal hway' ?_ ?_, fun l hl => ?_⟩
    · rw [hresult, halone]
    · rwa [halone]
    · rw [halone]
      exact (hlocal.evolves_run hcwd).directory
        (fun hbelow => h.not_inScratch ht (.inl hl) ⟨_, .merge n, hbelow⟩) (hway l hl)

/-- **A step of a task itself takes it to one of its phases.**  Every directory that the step makes
on the way to the output is one that the task would have made alone. -/
theorem step (hphase : Phase tools o w n t v (.step change next)) (htools : tools.Tidy)
    (hdet : tools.Deterministic) (h : Neighbors o tasks w.disk) (ht : tasks[n]? = some t)
    (hkeeps : KeepsDirectories w.disk v.disk)
    (hgains : w.disk.Gains (Path.Passes w.disk.cwd (t.target o)) v.disk) :
    v.disk.Evolves (scopeOf o w.disk.cwd n t) (change v).disk ∧
      Phase tools o w n t (change v) (next v) ∧
      ∀ l, Path.Passes w.disk.cwd (t.target o) l → v.disk.node? l = none →
        (change v).disk.node? l = some .directory →
          ((workOf tools o n t).run w).2.disk.node? l = some .directory := by
  have hnamed := h.named t (List.mem_of_getElem? ht)
  generalize hj : Job.step change next = j at hphase
  cases hphase with
  | fresh untouched =>
      rw [workOf, MergeTask.job_eq_step] at hj
      cases hj
      refine ⟨.refl _ _, look h ht hgains.cwd_eq hkeeps untouched, fun l _ hnone hl => ?_⟩
      rw [id_eq, hnone] at hl
      cases hl
  | needed untouched missing =>
      rw [MergeTask.produce_eq_step hnamed] at hj
      cases hj
      rcases makeDirs_cases htools hdet h ht hkeeps hgains untouched missing with
        ⟨e, hmade, hended⟩ | ⟨d, hmade, hsettled, hnew⟩
      · simp only [hmade]
        refine ⟨.refl _ _, hended, fun l _ hnone hl => ?_⟩
        rw [hnone] at hl
        cases hl
      · simp only [hmade]
        refine ⟨?_, hsettled, fun l hl _ _ => hnew l hl⟩
        refine Disk.evolves_makeDirs (Files.makeDirs_eq_ok_iff.mp hmade) fun l hl => .inl (.inl ?_)
        rw [hgains.cwd_eq] at hl
        exact ⟨_, rfl, (MergeTask.passes_target_iff hnamed o).mpr hl⟩
  | settled isLocal ways result agrees =>
      rw [← hj] at isLocal result agrees
      cases isLocal with
      | step evolves steps rest =>
          have hevolves := evolves v hgains.cwd_eq
          refine ⟨hevolves, .settled (rest v hgains.cwd_eq) (fun l hl => ?_) result agrees,
            fun l hl hnone _ => ?_⟩
          · refine hevolves.directory (fun hbelow => ?_) (ways l hl)
            exact h.not_inScratch ht (.inl hl) ⟨_, .merge n, hbelow⟩
          · rw [ways l hl] at hnone
            cases hnone
  | ended => cases hj

/-- A task that has ended has come to what it would have come to alone, and its directories are
there. -/
theorem of_done {a : Except Stop TaskStatus} (hphase : Phase tools o w n t v (.done a))
    (hnamed : t.IsNamed) : a = ((workOf tools o n t).run w).1 ∧
      (∀ l, Owns o w.disk.cwd n t l →
        v.disk.node? l = ((workOf tools o n t).run w).2.disk.node? l) ∧
      ∀ l, Path.Passes w.disk.cwd (t.target o) l →
        ((workOf tools o n t).run w).2.disk.node? l = some .directory →
          v.disk.node? l = some .directory := by
  generalize hj : Job.done a = j at hphase
  cases hphase with
  | fresh =>
      rw [workOf, MergeTask.job_eq_step] at hj
      cases hj
  | needed =>
      rw [MergeTask.produce_eq_step hnamed] at hj
      cases hj
  | settled isLocal ways result agrees =>
      rw [← hj] at result agrees
      refine ⟨result, fun l hl => agrees.node?_eq l ?_, fun l hl _ => ways l hl⟩
      exact hl.imp .inr fun hbelow => .inr (.inr hbelow)
  | ended result owned made =>
      cases hj
      exact ⟨result, owned, made⟩

end Phase

/-! ### Schedules -/

/-- Each task is in one of its phases.  Directories are still there, and where no task has its
output or its scratch directory, nothing is new but directories that some task would have made
alone. -/
structure Phases (tools : Toolchain σ) (o : MergeOptions) (tasks : List MergeTask) (w : World σ)
    (left : Nat → Job (World σ) (Except Stop TaskStatus)) (v : World σ) : Prop where
  cwd : v.disk.cwd = w.disk.cwd
  keeps : KeepsDirectories w.disk v.disk
  gained : ∀ l, (∀ n t, tasks[n]? = some t → ¬ Owns o w.disk.cwd n t l) →
    v.disk.node? l = w.disk.node? l ∨
      w.disk.node? l = none ∧ v.disk.node? l = some .directory ∧
        ∃ n t, tasks[n]? = some t ∧ Path.Passes w.disk.cwd (t.target o) l ∧
          ((workOf tools o n t).run w).2.disk.node? l = some .directory
  phase : ∀ n t, tasks[n]? = some t → Phase tools o w n t v (left n)

namespace Phases

variable {left left' : Nat → Job (World σ) (Except Stop TaskStatus)}

/-- At the start no task has done anything. -/
theorem start (tools : Toolchain σ) (o : MergeOptions) (tasks : List MergeTask) (w : World σ) :
    Phases tools o tasks w (fresh tools o tasks) w where
  cwd := rfl
  keeps _ := id
  gained _ _ := .inl rfl
  phase n t ht := by
    rw [fresh_of_some ht]
    exact .fresh fun _ _ => rfl

/-- On the way to an output, nothing is new but directories. -/
theorem gains (hphases : Phases tools o tasks w left v) (h : Neighbors o tasks w.disk)
    (ht : tasks[n]? = some t) : w.disk.Gains (Path.Passes w.disk.cwd (t.target o)) v.disk := by
  refine ⟨hphases.cwd, fun l hl => ?_⟩
  by_cases howned : ∀ m u, tasks[m]? = some u → ¬ Owns o w.disk.cwd m u l
  · exact (hphases.gained l howned).imp_right fun hgained => ⟨hgained.1, hgained.2.1⟩
  · simp only [not_forall, not_not] at howned
    obtain ⟨m, u, hu, rfl | hbelow⟩ := howned
    · -- the output of another task is on the way only if it is a directory
      have hdirectory := h.directory_of_place ht hu hl
      rw [hphases.keeps _ hdirectory, hdirectory]
      exact .inl rfl
    · exact absurd ⟨_, .merge m, hbelow⟩ (h.not_inScratch ht (.inl hl))

/-- **A step of a task leaves every task in one of its phases.** -/
theorem step (hphases : Phases tools o tasks w left v) (htools : tools.Tidy)
    (hdet : tools.Deterministic) (h : Neighbors o tasks w.disk) (ht : tasks[m]? = some t)
    (hm : left m = .step change next) :
    Phases tools o tasks w (Function.update left m (next v)) (change v) := by
  have hphase := hphases.phase m t ht
  rw [hm] at hphase
  obtain ⟨hevolves, hnext, hmade⟩ :=
    hphase.step htools hdet h ht hphases.keeps (hphases.gains h ht)
  refine ⟨hevolves.cwd.trans hphases.cwd, fun l hl => ?_, fun l hl => ?_, fun n u hu => ?_⟩
  · refine hevolves.directory (fun hbelow => ?_) (hphases.keeps l hl)
    rw [h.bare l ⟨_, .merge m, hbelow⟩] at hl
    cases hl
  · have hgained := hphases.gained l hl
    cases hevolves.change l with
    | keep hkeep => rwa [hkeep]
    | scratch hbelow => exact absurd (.inr hbelow) (hl m t ht)
    | make hway hnone hnew =>
        -- only a directory that was not there before is made
        have hbefore : w.disk.node? l = none := by
          rcases hgained with hsame | ⟨hbefore, -⟩
          · rwa [← hsame]
          · exact hbefore
        rcases hway with ⟨path, rfl, hway⟩ | ⟨scratch, hscratch, hway⟩
        · exact .inr ⟨hbefore, hnew, m, t, ht, hway, hmade l hway hnone hnew⟩
        · rw [hscratch.directory_of_passes h.temporary hway] at hbefore
          cases hbefore
    | write hfile =>
        obtain ⟨path, rfl, rfl⟩ := hfile
        exact absurd (.inl rfl) (hl m t ht)
  · by_cases hn : n = m
    · subst hn
      obtain rfl := Option.some.inj (ht.symm.trans hu)
      rwa [Function.update_self]
    · rw [Function.update_of_ne hn]
      exact (hphases.phase n u hu).later h ht hu (Ne.symm hn) hphases.cwd hphases.keeps hevolves

/-- **Tasks that have all ended leave the same**, in whatever way they got there. -/
theorem agreesOn {result result' : Nat → Except Stop TaskStatus} (h : Neighbors o tasks w.disk)
    (hphases : Phases tools o tasks w (fun n => .done (result n)) v)
    (hphases' : Phases tools o tasks w (fun n => .done (result' n)) v') :
    v.disk.AgreesOn (fun _ => True) v'.disk := by
  -- a directory that some task would have made alone is there in the end
  have hmade : ∀ {result : Nat → Except Stop TaskStatus} {v : World σ} {l : Location},
      Phases tools o tasks w (fun n => .done (result n)) v →
      (∃ n t, tasks[n]? = some t ∧ Path.Passes w.disk.cwd (t.target o) l ∧
        ((workOf tools o n t).run w).2.disk.node? l = some .directory) →
      v.disk.node? l = some .directory := by
    rintro result v l hphases ⟨n, t, ht, hl, hdirectory⟩
    exact ((hphases.phase n t ht).of_done (h.named t (List.mem_of_getElem? ht))).2.2 l hl hdirectory
  refine ⟨hphases'.cwd.trans hphases.cwd.symm, fun l _ => ?_⟩
  by_cases howned : ∀ n t, tasks[n]? = some t → ¬ Owns o w.disk.cwd n t l
  · rcases hphases.gained l howned with hsame | ⟨-, hnew, hmaker⟩
    · rcases hphases'.gained l howned with hsame' | ⟨-, hnew', hmaker'⟩
      · rw [hsame', hsame]
      · rw [hnew', hmade hphases hmaker']
    · rw [hmade hphases' hmaker, hnew]
  · simp only [not_forall, not_not] at howned
    obtain ⟨n, t, ht, hl⟩ := howned
    have hnamed := h.named t (List.mem_of_getElem? ht)
    rw [((hphases'.phase n t ht).of_done hnamed).2.1 l hl,
      ((hphases.phase n t ht).of_done hnamed).2.1 l hl]

end Phases

/-- **In every schedule each task is in one of its phases.** -/
theorem phases_of_schedule {left : Nat → Job (World σ) (Except Stop TaskStatus)}
    (htools : tools.Tidy) (hdet : tools.Deterministic) (h : Neighbors o tasks w.disk)
    (hschedule : Schedule tools o tasks w left v) : Phases tools o tasks w left v := by
  induction hschedule with
  | start => exact .start tools o tasks w
  | step hschedule hm ih =>
      obtain ⟨t, ht⟩ := hschedule.exists_task hm
      exact ih.step htools hdet h ht hm

/-- **All schedules of tasks that share nothing but directories come to the same.** -/
theorem Neighbors.confluent (h : Neighbors o tasks w.disk) (htools : tools.Tidy)
    (hdet : tools.Deterministic) : Confluent tools o tasks w := by
  intro result result' v v' hschedule hschedule'
  have hphases := phases_of_schedule htools hdet h hschedule
  have hphases' := phases_of_schedule htools hdet h hschedule'
  refine ⟨funext fun n => ?_, hphases.agreesOn h hphases'⟩
  cases ht : tasks[n]? with
  | none =>
      exact Job.done.inj ((hschedule.left_of_none ht).trans (hschedule'.left_of_none ht).symm)
  | some t =>
      have hnamed := h.named t (List.mem_of_getElem? ht)
      rw [((hphases.phase n t ht).of_done hnamed).1, ((hphases'.phase n t ht).of_done hnamed).1]

end MergePool

end CharacterArt
