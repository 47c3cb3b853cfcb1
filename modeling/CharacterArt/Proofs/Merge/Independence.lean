import CharacterArt.Proofs.Merge.Locality
import CharacterArt.Proofs.Merge.Schedules

/-!
# Tasks that keep out of each other's way

Tasks whose outputs are there already and of which none takes another one's output as its mask see
nothing of each other, however their steps are interleaved.  The invariant is about the rest of every
task: done alone from here, it comes to what the whole task would have come to at the start.  A step
of a task does not change what its own rest comes to, and no other task sees the step.

So when all tasks have ended, each one has done what it would have done alone, whoever ran it and
when.  In particular a pool with many workers leaves what a pool leaves whose tasks run in order.

## Main Definitions

* `MergePool.Separate` — tasks that keep out of each other's way
* `MergePool.Underway` — tasks of which each one has done some of its work

## Main Results

* `MergePool.Separate.agreesOn_sees` — what one task does, no other one sees
* `MergePool.Underway.step` — one step of a task
* `MergePool.underway_of_schedule`, `MergePool.Separate.confluent` — all schedules come to the same
* `MergePool.State.agrees_runInOrder` — a pool leaves what the tasks leave in order
-/

namespace CharacterArt

/-! ### Paths that lead somewhere -/

namespace Disk

variable {α : Type} {d : Disk α} {path : String} {l : Location}

theorem directory_of_passes (h : d.exists? path = true) (hl : Path.Passes d.cwd path l) :
    d.node? l = some .directory := by
  obtain ⟨n, hn⟩ := Option.isSome_iff_exists.mp h
  exact (find?_eq_some_iff.mp hn).1.2 l hl

theorem node?_ne_none_of_visits (h : d.exists? path = true) (hl : Path.Visits d.cwd path l) :
    d.node? l ≠ none := by
  rcases hl with hl | rfl
  · rw [directory_of_passes h hl]
    exact nofun
  · obtain ⟨n, hn⟩ := Option.isSome_iff_exists.mp h
    rw [(find?_eq_some_iff.mp hn).2]
    exact nofun

end Disk

/-- Scratch directories of different tasks have nothing in common. -/
theorem MergePool.eq_of_isPrefix_scratchOf {m n : Nat} {l : Location}
    (hm : Path.place [] (scratchOf m) <+: l) (hn : Path.place [] (scratchOf n) <+: l) : m = n := by
  obtain ⟨name, hname, hjoin⟩ := (IsScratch.merge m).exists_name
  obtain ⟨other, hother, hjoin'⟩ := (IsScratch.merge n).exists_name
  have hplace : Path.place [] (scratchOf m) = ["tmp", name] := by
    rw [hjoin]
    exact hname.place_join "/tmp" []
  have hplace' : Path.place [] (scratchOf n) = ["tmp", other] := by
    rw [hjoin']
    exact hother.place_join "/tmp" []
  rw [hplace] at hm
  rw [hplace'] at hn
  have hsame := (List.prefix_of_prefix_length_le hm hn (Nat.le_refl _)).eq_of_length rfl
  simp only [List.cons.injEq, and_true, true_and] at hsame
  have hscratch : scratchOf m = scratchOf n := by
    rw [hjoin, hjoin', hsame]
  have hchars := congrArg String.toList hscratch
  rw [scratchOf, scratchOf, String.toList_append, String.toList_append] at hchars
  exact Path.toString_inj (String.toList_inj.mp (List.append_cancel_left hchars))

namespace MergePool

variable {σ : Type} {tools : Toolchain σ} {o : MergeOptions} {tasks : List MergeTask}
  {w v v' : World σ} {m n : Nat} {t u : MergeTask}

/-- Tasks that keep out of each other's way: their outputs and masks are there, no two have one
output, and none takes the output of another one as its mask.  No scratch directory is there yet, but
the directory for them is. -/
structure Separate (o : MergeOptions) (tasks : List MergeTask) (d : Files) : Prop where
  bare : d.Lacks InScratch
  temporary : d.node? ["tmp"] = some .directory
  outputs : ∀ t ∈ tasks, d.exists? (t.target o) = true
  masks : ∀ t ∈ tasks, ∀ path, t.mask = some (.file path) → d.exists? path = true
  apart : ∀ (m n : Nat) t u, tasks[m]? = some t → tasks[n]? = some u → m ≠ n →
    Path.place d.cwd (t.target o) ≠ Path.place d.cwd (u.target o) ∧
      ∀ path, u.mask = some (.file path) → Path.place d.cwd path ≠ Path.place d.cwd (t.target o)

/-- The directories of a disk are still there. -/
def KeepsDirectories (d d' : Files) : Prop :=
  ∀ l, d.node? l = some .directory → d'.node? l = some .directory

namespace Separate

/-- Whatever is there stands in no scratch directory. -/
theorem not_inScratch (h : Separate o tasks w.disk) {l : Location} (hl : w.disk.node? l ≠ none) :
    ¬ InScratch l :=
  fun hin => hl (h.bare l hin)

/-- Directories that a task may make are there. -/
theorem directory_of_ways (h : Separate o tasks w.disk) (ht : t ∈ tasks) {scratch : String}
    {l : Location} (hl : (producingIn scratch w.disk.cwd (· = t.target o)).ways l) :
    w.disk.node? l = some .directory := by
  rcases hl with ⟨path, rfl, hl⟩ | ⟨other, hother, hl⟩
  · exact Disk.directory_of_passes (h.outputs t ht) hl
  · exact hother.directory_of_passes h.temporary hl

/-- **What one task does, no other one sees.** -/
theorem agreesOn_sees (h : Separate o tasks w.disk) (ht : tasks[m]? = some t)
    (hu : tasks[n]? = some u) (hmn : m ≠ n) (hkeeps : KeepsDirectories w.disk v.disk)
    (hevolves : v.disk.Evolves (producingIn (scratchOf m) w.disk.cwd (· = t.target o)) v'.disk) :
    v.disk.AgreesOn (u.Sees o (scratchOf n) w.disk.cwd) v'.disk := by
  have htasks := List.mem_of_getElem? ht
  have hutasks := List.mem_of_getElem? hu
  obtain ⟨hplaces, hmasks⟩ := h.apart m n t u ht hu hmn
  refine ⟨hevolves.cwd, fun l hl => ?_⟩
  cases hevolves.change l with
  | keep hkeep => exact hkeep
  | scratch hbelow =>
      have hin : InScratch l := ⟨_, .merge m, hbelow⟩
      exfalso
      rcases hl with hl | ⟨path, hpath, hl⟩ | hl | hl
      · exact h.not_inScratch (Disk.node?_ne_none_of_visits (h.outputs u hutasks) hl) hin
      · exact h.not_inScratch (Disk.node?_ne_none_of_visits (h.masks u hutasks path hpath) hl) hin
      · exact InScratch.not_passes (.merge n) hl hin
      · exact hmn (eq_of_isPrefix_scratchOf hbelow hl)
  | make hway hnone =>
      rw [hkeeps l (h.directory_of_ways htasks hway)] at hnone
      cases hnone
  | write hfile hother =>
      obtain ⟨path, rfl, rfl⟩ := hfile
      exfalso
      rcases hl with hl | ⟨path, hpath, hl⟩ | hl | hl
      · rcases hl with hl | hl
        · exact hother (hkeeps _ (Disk.directory_of_passes (h.outputs u hutasks) hl))
        · exact hplaces hl
      · rcases hl with hl | hl
        · exact hother (hkeeps _ (Disk.directory_of_passes (h.masks u hutasks path hpath) hl))
        · exact hmasks path hpath hl.symm
      · exact hother (hkeeps _ ((IsScratch.merge n).directory_of_passes h.temporary hl))
      · refine h.not_inScratch (Disk.node?_ne_none_of_visits (h.outputs t htasks) (.inr rfl)) ?_
        exact ⟨_, .merge n, hl⟩

/-- What no task owns does not change. -/
theorem node?_eq (h : Separate o tasks w.disk) (ht : tasks[m]? = some t)
    (hkeeps : KeepsDirectories w.disk v.disk)
    (hevolves : v.disk.Evolves (producingIn (scratchOf m) w.disk.cwd (· = t.target o)) v'.disk)
    {l : Location} (hscratch : ¬ Path.place [] (scratchOf m) <+: l)
    (hplace : l ≠ Path.place w.disk.cwd (t.target o)) : v'.disk.node? l = v.disk.node? l := by
  cases hevolves.change l with
  | keep hkeep => exact hkeep
  | scratch hbelow => exact absurd hbelow hscratch
  | make hway hnone =>
      rw [hkeeps l (h.directory_of_ways (List.mem_of_getElem? ht) hway)] at hnone
      cases hnone
  | write hfile _ =>
      obtain ⟨path, rfl, rfl⟩ := hfile
      exact absurd rfl hplace

end Separate

/-! ### Tasks that are underway -/

/-- The work on the task with a given number. -/
def workOf (tools : Toolchain σ) (o : MergeOptions) (n : Nat) (t : MergeTask) :
    Job (World σ) (Except Stop TaskStatus) :=
  (t.job tools o (scratchOf n)).run

/-- Each task has done some of its work, with some of it left.  The rest, done alone from here, comes
to what all of the work would have come to at the start, as far as the task can see.  Directories are
still there, and nothing has changed that no task owns. -/
structure Underway (tools : Toolchain σ) (o : MergeOptions) (tasks : List MergeTask) (w : World σ)
    (left : Nat → MergeTask → Job (World σ) (Except Stop TaskStatus)) (v : World σ) : Prop where
  cwd : v.disk.cwd = w.disk.cwd
  keeps : KeepsDirectories w.disk v.disk
  outside : ∀ l, (∀ n t, tasks[n]? = some t → ¬ Path.place [] (scratchOf n) <+: l ∧
    l ≠ Path.place w.disk.cwd (t.target o)) → v.disk.node? l = w.disk.node? l
  isLocal : ∀ n t, tasks[n]? = some t → (left n t).IsLocal w.disk.cwd
    (producingIn (scratchOf n) w.disk.cwd (· = t.target o)) (t.Sees o (scratchOf n) w.disk.cwd)
  result : ∀ n t, tasks[n]? = some t →
    ((left n t).run v).1 = ((workOf tools o n t).run w).1
  agrees : ∀ n t, tasks[n]? = some t → ((workOf tools o n t).run w).2.disk.AgreesOn
    (t.Sees o (scratchOf n) w.disk.cwd) ((left n t).run v).2.disk

namespace Underway

variable {left left' : Nat → MergeTask → Job (World σ) (Except Stop TaskStatus)}

/-- At the start all work is left. -/
theorem start (htools : tools.Tidy) (hdet : tools.Deterministic) (o : MergeOptions)
    (tasks : List MergeTask) (w : World σ) :
    Underway tools o tasks w (workOf tools o) w where
  cwd := rfl
  keeps _ := id
  outside _ _ := rfl
  isLocal n _ _ := MergeTask.isLocal_job htools hdet (.merge n) w.disk.cwd
  result _ _ _ := rfl
  agrees _ _ _ := .refl _ _

theorem congr (h : Underway tools o tasks w left v)
    (hleft : ∀ n t, tasks[n]? = some t → left' n t = left n t) :
    Underway tools o tasks w left' v where
  cwd := h.cwd
  keeps := h.keeps
  outside := h.outside
  isLocal n t ht := hleft n t ht ▸ h.isLocal n t ht
  result n t ht := hleft n t ht ▸ h.result n t ht
  agrees n t ht := hleft n t ht ▸ h.agrees n t ht

/-- **One step of a task leaves every task underway.** -/
theorem step (h : Underway tools o tasks w left v) (hsep : Separate o tasks w.disk)
    (ht : tasks[m]? = some t) {change : World σ → World σ}
    {next : World σ → Job (World σ) (Except Stop TaskStatus)}
    (hleft : left m t = .step change next) (hnext : left' m t = next v)
    (hothers : ∀ n u, n ≠ m → left' n u = left n u) :
    Underway tools o tasks w left' (change v) := by
  have hlocal := h.isLocal m t ht
  rw [hleft] at hlocal
  obtain ⟨hevolves, hrest⟩ : v.disk.Evolves
      (producingIn (scratchOf m) w.disk.cwd (· = t.target o)) (change v).disk ∧
        (next v).IsLocal w.disk.cwd (producingIn (scratchOf m) w.disk.cwd (· = t.target o))
          (t.Sees o (scratchOf m) w.disk.cwd) := by
    cases hlocal with
    | step evolves agrees rest => exact ⟨evolves v h.cwd, rest v h.cwd⟩
  -- the rest of the task itself comes to the same by definition
  have hself : (left m t).run v = (next v).run (change v) := by
    rw [hleft]
    rfl
  have hother : ∀ n u, tasks[n]? = some u → n ≠ m →
      ((left n u).run (change v)).1 = ((left n u).run v).1 ∧
        ((left n u).run v).2.disk.AgreesOn (u.Sees o (scratchOf n) w.disk.cwd)
          ((left n u).run (change v)).2.disk := fun n u hu hne =>
    (h.isLocal n u hu).run_agrees h.cwd (hsep.agreesOn_sees ht hu hne.symm h.keeps hevolves)
  refine ⟨hevolves.cwd.trans h.cwd, fun l hl => ?_, fun l hl => ?_, fun n u hu => ?_,
    fun n u hu => ?_, fun n u hu => ?_⟩
  · refine hevolves.directory (fun hbelow => ?_) (h.keeps l hl)
    exact hsep.not_inScratch (by rw [hl]; exact nofun) ⟨_, .merge m, hbelow⟩
  · obtain ⟨hscratch, hplace⟩ := hl m t ht
    rw [hsep.node?_eq ht h.keeps hevolves hscratch hplace, h.outside l hl]
  · by_cases hn : n = m
    · subst hn
      obtain rfl := Option.some.inj (ht.symm.trans hu)
      rwa [hnext]
    · rw [hothers n u hn]
      exact h.isLocal n u hu
  · by_cases hn : n = m
    · subst hn
      obtain rfl := Option.some.inj (ht.symm.trans hu)
      rw [hnext, ← hself, h.result n t ht]
    · rw [hothers n u hn, (hother n u hu hn).1, h.result n u hu]
  · by_cases hn : n = m
    · subst hn
      obtain rfl := Option.some.inj (ht.symm.trans hu)
      rw [hnext, ← hself]
      exact h.agrees n t ht
    · rw [hothers n u hn]
      exact (h.agrees n u hu).trans (hother n u hu hn).2

/-- **Tasks that have all ended leave the same**, in whatever way they got there. -/
theorem agreesOn (h : Underway tools o tasks w left v) (h' : Underway tools o tasks w left' v')
    (hdone : ∀ n t, tasks[n]? = some t → ∃ a, left n t = .done a)
    (hdone' : ∀ n t, tasks[n]? = some t → ∃ a, left' n t = .done a) :
    v.disk.AgreesOn (fun _ => True) v'.disk := by
  have hown : ∀ {left : Nat → MergeTask → Job (World σ) (Except Stop TaskStatus)} {v : World σ},
      Underway tools o tasks w left v →
      (∀ n t, tasks[n]? = some t → ∃ a, left n t = .done a) → ∀ n t, tasks[n]? = some t →
      ((workOf tools o n t).run w).2.disk.AgreesOn (t.Sees o (scratchOf n) w.disk.cwd) v.disk := by
    intro left v h hdone n t ht
    obtain ⟨a, ha⟩ := hdone n t ht
    have hagrees := h.agrees n t ht
    rwa [ha] at hagrees
  refine ⟨h'.cwd.trans h.cwd.symm, fun l _ => ?_⟩
  by_cases hl : ∀ n t, tasks[n]? = some t → ¬ Path.place [] (scratchOf n) <+: l ∧
      l ≠ Path.place w.disk.cwd (t.target o)
  · rw [h'.outside l hl, h.outside l hl]
  · simp only [not_forall, not_and_or, not_not, ne_eq] at hl
    obtain ⟨n, t, ht, hl⟩ := hl
    have hsees : t.Sees o (scratchOf n) w.disk.cwd l := by
      rcases hl with hl | rfl
      · exact .inr (.inr (.inr hl))
      · exact .inl (.inr rfl)
    rw [(hown h' hdone' n t ht).node?_eq l hsees, (hown h hdone n t ht).node?_eq l hsees]

end Underway

/-! ### Schedules -/

/-- **In every schedule the tasks are underway.** -/
theorem underway_of_schedule {left : Nat → Job (World σ) (Except Stop TaskStatus)}
    (htools : tools.Tidy) (hdet : tools.Deterministic) (hsep : Separate o tasks w.disk)
    (h : Schedule tools o tasks w left v) : Underway tools o tasks w (fun n _ => left n) v := by
  induction h with
  | start =>
      exact (Underway.start htools hdet o tasks w).congr fun n t ht => fresh_of_some ht
  | @step left v m change next h hm ih =>
      obtain ⟨t, ht⟩ := h.exists_task hm
      exact ih.step hsep ht hm (Function.update_self m (next v) left) fun n u hn =>
        Function.update_of_ne hn (next v) left

/-- **All schedules of tasks that keep out of each other's way come to the same.** -/
theorem Separate.confluent (hsep : Separate o tasks w.disk) (htools : tools.Tidy)
    (hdet : tools.Deterministic) : Confluent tools o tasks w := by
  intro result result' v v' h h'
  have hunderway := underway_of_schedule htools hdet hsep h
  have hunderway' := underway_of_schedule htools hdet hsep h'
  refine ⟨funext fun n => ?_, hunderway.agreesOn hunderway' (fun n _ _ => ⟨result n, rfl⟩)
    fun n _ _ => ⟨result' n, rfl⟩⟩
  cases ht : tasks[n]? with
  | none => exact Job.done.inj ((h.left_of_none ht).trans (h'.left_of_none ht).symm)
  | some t => exact (hunderway.result n t ht).trans (hunderway'.result n t ht).symm

/-- **A pool whose tasks keep out of each other's way and have all ended leaves what its tasks leave in
order**: the same outcomes and the same disk, however many workers there were and in whatever order they
acted. -/
theorem State.agrees_runInOrder {s : State σ} {workers : Nat} {history : List Event}
    (htools : tools.Tidy) (hdet : tools.Deterministic)
    (hrun : (start workers w).run tools o history = some s)
    (hsep : Separate o s.submitted w.disk)
    (hended : ∀ out ∈ s.report.outcomes, out.status ≠ .timedOut) :
    s.report.outcomes = (runInOrder tools o s.submitted w).1.outcomes ∧
      (runInOrder tools o s.submitted w).2.disk.AgreesOn (fun _ => True) s.world.disk :=
  (hsep.confluent htools hdet).agrees_runInOrder hrun hended

end MergePool

end CharacterArt
