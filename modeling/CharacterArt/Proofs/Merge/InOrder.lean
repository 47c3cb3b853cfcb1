import CharacterArt.Proofs.Merge.Effects
import CharacterArt.Proofs.Merge.Targets

/-!
# Tasks one after the other

What holds of one task holds of a pool whose tasks run one after the other: the outputs of the tasks
that ended well are there in the end, and nothing else is left but directories.

## Main Results

* `MergePool.runFrom_cases` — what the tasks leave behind
* `MergePool.runFrom_of_exists` — if all outputs are there, nothing is done
* `MergePool.runFrom_of_found` — outputs that are there are found, and they are not written
* `MergePool.ne_cached_of_force`, `MergePool.ne_cached_of_bare` — no output is found
* `MergePool.mem_outcomes`, `MergePool.exists_outcome` — the outcomes and the tasks
* `MergePool.runInOrder_cases`, `MergePool.exists_of_isSuccess`, `MergePool.runInOrder_of_found`,
  `MergePool.runInOrder_of_exists` — pools as a whole
* `MergePool.isTree_runInOrder` — the files still form a tree
-/

namespace CharacterArt

theorem Disk.Evolves.producing {cwd : Location} {d d' : Files} {outputs more : String → Prop}
    (h : d.Evolves (CharacterArt.producing cwd outputs) d') (hmore : ∀ path, outputs path → more path) :
    d.Evolves (CharacterArt.producing cwd more) d' := by
  refine h.mono (fun _ => id) ?_ ?_
  · rintro l ⟨path, hpath, hl⟩
    exact .inl ⟨path, hmore path hpath, hl⟩
  · rintro l (⟨path, hpath, hl⟩ | hl)
    · exact .inl (.inl ⟨path, hmore path hpath, hl⟩)
    · exact .inl (.inr hl)

/-- **Producing files leaves a tree**, if the ways to them are there and each of them has a name. -/
theorem Disk.IsTree.producing {d d' : Files} {outputs : String → Prop} (h : d.IsTree)
    (hd : d.Evolves (CharacterArt.producing d.cwd outputs) d')
    (hway : ∀ path, outputs path → ∀ m, Path.Passes d.cwd path m → d.node? m = some .directory)
    (hplace : ∀ path, outputs path → ∀ l name, Path.place d.cwd path = l ++ [name] →
      Path.IsName name ∧ d.node? l = some .directory) : d'.IsTree := by
  refine h.grows hd (fun _ => id) fun l name hnone hnode => ?_
  -- what is new is a file, or the directory of all scratch directories
  cases hd.change (l ++ [name]) with
  | keep hkeep => exact absurd (hkeep.trans hnone) hnode
  | scratch hscratch => exact absurd hscratch id
  | make hways =>
      rcases hways with ⟨path, hpath, hpasses⟩ | ⟨scratch, hscratch, hpasses⟩
      · rw [hway path hpath _ hpasses] at hnone
        cases hnone
      · rcases hscratch.passes hpasses with heq | heq
        · exact absurd heq (List.append_ne_nil_of_right_ne_nil l (List.cons_ne_nil name []))
        · have hroot : l ++ [name] = [] ++ ["tmp"] := heq
          obtain ⟨rfl, hname⟩ := List.append_inj' hroot rfl
          obtain rfl := List.head_eq_of_cons_eq hname
          exact ⟨by decide, rfl⟩
  | write hfile =>
      obtain ⟨path, hpath, heq⟩ := hfile
      obtain ⟨hname, hl⟩ := hplace path hpath l name heq.symm
      exact ⟨hname, hd.directory id hl⟩

/-- **A task leaves a tree**: it makes the directory above its output before it produces anything. -/
theorem MergeTask.isTree_job {σ : Type} {tools : Toolchain σ} {o : MergeOptions} {scratch : String}
    {t : MergeTask} {w w' : World σ} {result : Except Stop TaskStatus} (htools : tools.Tidy)
    (h : IsScratch scratch) (hlacks : w.disk.Lacks InScratch)
    (havoids : AvoidsScratch w.disk.cwd (t.target o)) (htree : w.disk.IsTree)
    (hrun : (t.job tools o scratch).run.run w = (result, w')) : w'.disk.IsTree := by
  rcases job_cases_of_made htools h hlacks havoids hrun with
    ⟨rfl, -⟩ | ⟨d, hd, hmade, hevolves, -⟩
  · exact htree
  · have htree' : d.IsTree := htree.makeDirs (Files.makeDirs_eq_ok_iff.mp hd)
    have hway : ∀ m, Path.Passes w.disk.cwd (t.target o) m → d.node? m = some .directory :=
      fun m => directory_of_makeAbove htree.cwd hd
    rw [← hmade.cwd] at hevolves hway
    refine htree'.producing hevolves ?_ ?_
    · rintro path rfl
      exact hway
    · rintro path rfl l name heq
      obtain ⟨above, last, hplace, hlast, hpasses⟩ := t.exists_place_target o d.cwd
      obtain ⟨rfl, hname⟩ := List.append_inj' (heq.symm.trans hplace) rfl
      obtain rfl := List.head_eq_of_cons_eq hname
      exact ⟨hlast, hway l hpasses⟩

namespace MergePool

variable {σ : Type} {tools : Toolchain σ} {o : MergeOptions} {t : MergeTask} {ts : List MergeTask}
  {n : Nat} {w w' : World σ} {statuses : List (Option TaskStatus)}

theorem eq_ok_of_ofWork? {result : Except Stop TaskStatus} {status : TaskStatus}
    (h : TaskStatus.ofWork? result = some status) (hsuccess : status.isSuccess = true) :
    result = .ok status := by
  cases result with
  | ok found => exact congrArg Except.ok (Option.some.inj h)
  | error stop =>
      cases stop with
      | failed e =>
          rw [← Option.some.inj h] at hsuccess
          cases hsuccess
      | broke message =>
          rw [← Option.some.inj h] at hsuccess
          cases hsuccess
      | stalled => cases h

theorem runFrom_cons (tools : Toolchain σ) (o : MergeOptions) (n : Nat) (t : MergeTask)
    (ts : List MergeTask) (w : World σ) :
    runFrom tools o n (t :: ts) w =
      (TaskStatus.ofWork? ((t.job tools o (scratchOf n)).run.run w).1 ::
        (runFrom tools o (n + 1) ts ((t.job tools o (scratchOf n)).run.run w).2).1,
        (runFrom tools o (n + 1) ts ((t.job tools o (scratchOf n)).run.run w).2).2) := by
  simp only [runFrom, runTask]

theorem length_runFrom (tools : Toolchain σ) (o : MergeOptions) (n : Nat) (ts : List MergeTask)
    (w : World σ) : (runFrom tools o n ts w).1.length = ts.length := by
  induction ts generalizing n w with
  | nil => rfl
  | cons t rest ih => rw [runFrom_cons, List.length_cons, List.length_cons, ih]

/-- **Tasks leave their outputs and directories behind, and no scratch directory.**  The output of a
task that ended well is there in the end, as a file if the task wrote it. -/
theorem runFrom_cases (htools : tools.Tidy) {outputs : String → Prop}
    (houtputs : ∀ t ∈ ts, outputs (t.target o))
    (havoids : ∀ path, outputs path → AvoidsScratch w.disk.cwd path)
    (hlacks : w.disk.Lacks InScratch) (hrun : runFrom tools o n ts w = (statuses, w')) :
    w.disk.Evolves (producing w.disk.cwd outputs) w'.disk ∧ w'.disk.Lacks InScratch ∧
      ∀ t status, (t, some status) ∈ ts.zip statuses → status.isSuccess = true →
        w'.disk.exists? (t.target o) = true ∧
          (status = .written → w'.disk.isFile (t.target o) = true) := by
  -- by induction on the tasks: what the first one leaves behind is still there in the end
  induction ts generalizing n w statuses with
  | nil =>
      cases hrun
      exact ⟨Disk.Evolves.refl _ _, hlacks, by simp⟩
  | cons t rest ih =>
      rw [runFrom_cons] at hrun
      match hjob : (t.job tools o (scratchOf n)).run.run w with
      | (result, middle) =>
          rw [hjob] at hrun
          cases hrun
          have ht := houtputs t List.mem_cons_self
          obtain ⟨hfirst, hbare, hthere⟩ :=
            MergeTask.job_cases htools (.merge n) hlacks (havoids _ ht) hjob
          have hfirst' : w.disk.Evolves (producing w.disk.cwd outputs) middle.disk :=
            hfirst.producing fun path hpath => hpath ▸ ht
          obtain ⟨hrest, hbare', hthere'⟩ := ih (n := n + 1) (w := middle)
            (fun u hu => houtputs u (List.mem_cons_of_mem t hu))
            (by rwa [hfirst.cwd]) hbare rfl
          rw [hfirst.cwd] at hrest
          refine ⟨hfirst'.trans hrest, hbare', ?_⟩
          intro u status hu hsuccess
          rw [List.zip_cons_cons, List.mem_cons] at hu
          rcases hu with heq | hu
          · obtain ⟨rfl, hstatus⟩ := Prod.mk.inj heq
            have hresult := eq_ok_of_ofWork? hstatus.symm hsuccess
            obtain ⟨hexists, hfile⟩ := hthere status hresult
            exact ⟨hrest.exists? (fun _ _ => id) hexists,
              fun hwritten => hrest.isFile (fun _ _ => id) (hfile hwritten)⟩
          · exact hthere' u status hu hsuccess

/-- **If every output is there and nothing is forced, nothing is done.** -/
theorem runFrom_of_exists (tools : Toolchain σ) (hforce : o.force = false)
    (hthere : ∀ t ∈ ts, w.disk.exists? (t.target o) = true) (n : Nat) :
    runFrom tools o n ts w = (ts.map fun _ => some .cached, w) := by
  induction ts generalizing n with
  | nil => rfl
  | cons t rest ih =>
      have hjob : (t.job tools o (scratchOf n)).run.run w = (.ok .cached, w) := by
        rw [MergeTask.run_job, hthere t List.mem_cons_self, hforce]
        rfl
      rw [runFrom_cons, hjob, ih fun u hu => hthere u (List.mem_cons_of_mem t hu)]
      rfl

/-- **Tasks leave a tree.** -/
theorem isTree_runFrom (htools : tools.Tidy) (havoids : ∀ t ∈ ts, AvoidsScratch w.disk.cwd (t.target o))
    (hlacks : w.disk.Lacks InScratch) (htree : w.disk.IsTree)
    (hrun : runFrom tools o n ts w = (statuses, w')) : w'.disk.IsTree := by
  induction ts generalizing n w statuses with
  | nil =>
      cases hrun
      exact htree
  | cons t rest ih =>
      rw [runFrom_cons] at hrun
      match hjob : (t.job tools o (scratchOf n)).run.run w with
      | (result, middle) =>
          rw [hjob] at hrun
          cases hrun
          have havoidsFirst := havoids t List.mem_cons_self
          obtain ⟨hfirst, hbare, -⟩ :=
            MergeTask.job_cases htools (.merge n) hlacks havoidsFirst hjob
          have htree' := MergeTask.isTree_job htools (.merge n) hlacks havoidsFirst htree hjob
          refine ih (n := n + 1) ?_ hbare htree' rfl
          rw [hfirst.cwd]
          exact fun u hu => havoids u (List.mem_cons_of_mem t hu)

/-- **Outputs that are there are found, and they are not written**, unless that is forced. -/
theorem runFrom_of_found (htools : tools.Tidy) (hforce : o.force = false)
    (havoids : ∀ t ∈ ts, AvoidsScratch w.disk.cwd (t.target o)) (hlacks : w.disk.Lacks InScratch)
    (hrun : runFrom tools o n ts w = (statuses, w')) :
    w.disk.Evolves (producing w.disk.cwd fun path =>
        w.disk.exists? path = false ∧ ∃ t ∈ ts, t.target o = path) w'.disk ∧
      ∀ t status, (t, status) ∈ ts.zip statuses → w.disk.exists? (t.target o) = true →
        status = some .cached := by
  -- by induction on the tasks: what is not there after the first one was not there before
  induction ts generalizing n w statuses with
  | nil =>
      cases hrun
      exact ⟨Disk.Evolves.refl _ _, by simp⟩
  | cons t rest ih =>
      rw [runFrom_cons] at hrun
      match hjob : (t.job tools o (scratchOf n)).run.run w with
      | (result, middle) =>
          rw [hjob] at hrun
          cases hrun
          obtain ⟨hfirst, hbare, -⟩ :=
            MergeTask.job_cases htools (.merge n) hlacks (havoids t List.mem_cons_self) hjob
          obtain ⟨hrest, hcached⟩ := ih (n := n + 1) (w := middle)
            (by rw [hfirst.cwd]; exact fun u hu => havoids u (List.mem_cons_of_mem t hu)) hbare rfl
          have hstays : ∀ {path}, w.disk.exists? path = true → middle.disk.exists? path = true :=
            hfirst.exists? fun _ _ => id
          have hmissing : ∀ path, (middle.disk.exists? path = false ∧ ∃ u ∈ rest, u.target o = path) →
              w.disk.exists? path = false ∧ ∃ u ∈ t :: rest, u.target o = path := by
            rintro path ⟨hnone, u, hu, rfl⟩
            refine ⟨?_, u, List.mem_cons_of_mem t hu, rfl⟩
            rw [← Bool.not_eq_true] at hnone ⊢
            exact fun hthere => hnone (hstays hthere)
          have hfound : w.disk.exists? (t.target o) = true → middle = w ∧ result = .ok .cached := by
            intro hthere
            rw [MergeTask.run_job, hthere, hforce] at hjob
            cases hjob
            exact ⟨rfl, rfl⟩
          rw [hfirst.cwd] at hrest
          refine ⟨?_, ?_⟩
          · refine Disk.Evolves.trans ?_ (hrest.producing hmissing)
            cases hthere : w.disk.exists? (t.target o) with
            | true =>
                rw [(hfound hthere).1]
                exact Disk.Evolves.refl _ _
            | false =>
                refine hfirst.producing ?_
                rintro path rfl
                exact ⟨hthere, t, List.mem_cons_self, rfl⟩
          · intro u status hu hthere
            rw [List.zip_cons_cons, List.mem_cons] at hu
            rcases hu with heq | hu
            · obtain ⟨rfl, rfl⟩ := Prod.mk.inj heq
              rw [(hfound hthere).2]
              rfl
            · exact hcached u status hu (hstays hthere)

/-- **If merging is forced, no output is found.** -/
theorem ne_cached_of_force (tools : Toolchain σ) (hforce : o.force = true) (n : Nat)
    (ts : List MergeTask) (w : World σ) : some .cached ∉ (runFrom tools o n ts w).1 := by
  induction ts generalizing n w with
  | nil => simp [runFrom]
  | cons t rest ih =>
      rw [runFrom_cons, List.mem_cons, not_or]
      refine ⟨fun hcached => ?_, ih (n + 1) _⟩
      exact MergeTask.ne_cached_of_run_job (.inl hforce) rfl (eq_ok_of_ofWork? hcached.symm rfl)

/-- **If no output is there, none is found**: no task makes the output of another one. -/
theorem ne_cached_of_bare (htools : tools.Tidy) {outputs : String → Prop}
    (houtputs : ∀ t ∈ ts, outputs (t.target o))
    (havoids : ∀ path, outputs path → AvoidsScratch w.disk.cwd path)
    (hlacks : w.disk.Lacks InScratch)
    (hbare : ∀ t ∈ ts, w.disk.node? (Path.place w.disk.cwd (t.target o)) = none)
    (hapart : ts.Pairwise fun t u =>
      Path.place w.disk.cwd (t.target o) ≠ Path.place w.disk.cwd (u.target o))
    (hways : ∀ t ∈ ts, ¬ (producing w.disk.cwd outputs).ways (Path.place w.disk.cwd (t.target o))) :
    some .cached ∉ (runFrom tools o n ts w).1 := by
  induction ts generalizing n w with
  | nil => simp [runFrom]
  | cons t rest ih =>
      have ht := houtputs t List.mem_cons_self
      match hjob : (t.job tools o (scratchOf n)).run.run w with
      | (result, middle) =>
          obtain ⟨hfirst, hbare', -⟩ :=
            MergeTask.job_cases htools (.merge n) hlacks (havoids _ ht) hjob
          have hcwd : middle.disk.cwd = w.disk.cwd := hfirst.cwd
          have hnone : w.disk.exists? (t.target o) = false := by
            rw [← Bool.not_eq_true, Disk.exists?, Option.isSome_iff_exists]
            rintro ⟨node, hfound⟩
            have hnode := (Disk.find?_eq_some_iff.mp hfound).2
            rw [hbare t List.mem_cons_self] at hnode
            cases hnode
          obtain ⟨hapartFirst, hapartRest⟩ := List.pairwise_cons.mp hapart
          rw [runFrom_cons, hjob, List.mem_cons, not_or]
          refine ⟨fun hcached => ?_, ?_⟩
          · exact MergeTask.ne_cached_of_run_job (.inr hnone) hjob (eq_ok_of_ofWork? hcached.symm rfl)
          · refine ih (fun u hu => houtputs u (List.mem_cons_of_mem t hu)) (by rwa [hcwd]) hbare'
              ?_ (by rwa [hcwd]) ?_
            · -- the outputs of the other tasks are neither this one nor on the way to it
              intro u hu
              rw [hcwd]
              have hnone' : w.disk.Lacks (· = Path.place w.disk.cwd (u.target o)) := by
                rintro l rfl
                exact hbare u (List.mem_cons_of_mem t hu)
              refine hfirst.lacks hnone' (fun l _ => id) ?_ ?_ _ rfl
              · rintro l rfl ⟨path, rfl, heq⟩
                exact hapartFirst u hu heq.symm
              · rintro l rfl hway
                refine hways u (List.mem_cons_of_mem t hu) ?_
                refine hway.imp_left ?_
                rintro ⟨path, rfl, hpasses⟩
                exact ⟨_, ht, hpasses⟩
            · intro u hu
              rw [hcwd]
              exact hways u (List.mem_cons_of_mem t hu)

/-! ### Outcomes -/

/-- The outcomes are those of the tasks, in order. -/
theorem runInOrder_eq (tools : Toolchain σ) (o : MergeOptions) (ts : List MergeTask) (w : World σ) :
    (runInOrder tools o ts w).1.outcomes = List.zipWith outcomeOf ts (runFrom tools o 0 ts w).1 ∧
      (runInOrder tools o ts w).2 = (runFrom tools o 0 ts w).2 := by
  simp only [runInOrder, and_self]

/-- Every outcome is that of a task and its status. -/
theorem mem_outcomes {out : TaskOutcome} : out ∈ (runInOrder tools o ts w).1.outcomes ↔
    ∃ t status, (t, status) ∈ ts.zip (runFrom tools o 0 ts w).1 ∧ outcomeOf t status = out := by
  rw [(runInOrder_eq tools o ts w).1, ← List.map_uncurry_zip_eq_zipWith]
  simp only [List.mem_map, Prod.exists, Function.uncurry_apply_pair]

/-- Every task has a status. -/
theorem exists_mem_zip (tools : Toolchain σ) (o : MergeOptions) (w : World σ) (ht : t ∈ ts) :
    ∃ status, (t, status) ∈ ts.zip (runFrom tools o 0 ts w).1 := by
  obtain ⟨i, hi, rfl⟩ := List.mem_iff_getElem.mp ht
  have hlength : i < (runFrom tools o 0 ts w).1.length := by
    rwa [length_runFrom]
  refine ⟨(runFrom tools o 0 ts w).1[i], ?_⟩
  rw [List.mem_iff_getElem]
  exact ⟨i, by rw [List.length_zip]; exact Nat.lt_min.mpr ⟨hi, hlength⟩, List.getElem_zip⟩

/-- **Every task has an outcome.** -/
theorem exists_outcome (tools : Toolchain σ) (o : MergeOptions) (w : World σ) (ht : t ∈ ts) :
    ∃ status, outcomeOf t status ∈ (runInOrder tools o ts w).1.outcomes := by
  obtain ⟨status, hmem⟩ := exists_mem_zip tools o w ht
  exact ⟨status, mem_outcomes.mpr ⟨_, _, hmem, rfl⟩⟩

/-- **A pool leaves outputs and directories behind, and no scratch directory.**  If no task failed,
all outputs are there in the end. -/
theorem runInOrder_cases (htools : tools.Tidy) {outputs : String → Prop}
    (houtputs : ∀ t ∈ ts, outputs (t.target o))
    (havoids : ∀ path, outputs path → AvoidsScratch w.disk.cwd path)
    (hlacks : w.disk.Lacks InScratch) {r : DrainReport} (hrun : runInOrder tools o ts w = (r, w')) :
    w.disk.Evolves (producing w.disk.cwd outputs) w'.disk ∧ w'.disk.Lacks InScratch ∧
      ((∀ out ∈ r.outcomes, out.status.isSuccess = true) →
        ∀ t ∈ ts, w'.disk.exists? (t.target o) = true) := by
  have hcases := runFrom_cases (n := 0) htools houtputs havoids hlacks rfl
  rw [← (runInOrder_eq tools o ts w).2, hrun] at hcases
  obtain ⟨hevolves, hlacks', hthere⟩ := hcases
  refine ⟨hevolves, hlacks', fun hsuccess t ht => ?_⟩
  obtain ⟨status, hmem⟩ := exists_mem_zip tools o w ht
  have hout : outcomeOf t status ∈ r.outcomes := by
    have hmem' := mem_outcomes.mpr ⟨_, _, hmem, rfl⟩
    rwa [hrun] at hmem'
  have hstatus := hsuccess _ hout
  cases status with
  | none => cases hstatus
  | some status => exact (hthere t status hmem hstatus).1

/-- **A pool leaves a tree.** -/
theorem isTree_runInOrder (htools : tools.Tidy)
    (havoids : ∀ t ∈ ts, AvoidsScratch w.disk.cwd (t.target o)) (hlacks : w.disk.Lacks InScratch)
    (htree : w.disk.IsTree) {r : DrainReport} (hrun : runInOrder tools o ts w = (r, w')) :
    w'.disk.IsTree := by
  have hend := isTree_runFrom (n := 0) htools havoids hlacks htree rfl
  rwa [← (runInOrder_eq tools o ts w).2, hrun] at hend

/-- **Outputs that are there are found by a pool, and they are not written**, unless that is forced. -/
theorem runInOrder_of_found (htools : tools.Tidy) (hforce : o.force = false)
    (havoids : ∀ t ∈ ts, AvoidsScratch w.disk.cwd (t.target o)) (hlacks : w.disk.Lacks InScratch)
    {r : DrainReport} (hrun : runInOrder tools o ts w = (r, w')) :
    w.disk.Evolves (producing w.disk.cwd fun path =>
        w.disk.exists? path = false ∧ ∃ t ∈ ts, t.target o = path) w'.disk ∧
      ∀ out ∈ r.outcomes, ∃ t ∈ ts, t.outputPath = out.output ∧
        (w.disk.exists? (t.target o) = true → out.status = .cached) := by
  have hfound := runFrom_of_found (n := 0) htools hforce havoids hlacks rfl
  rw [← (runInOrder_eq tools o ts w).2, hrun] at hfound
  obtain ⟨hevolves, hcached⟩ := hfound
  obtain rfl := congrArg Prod.fst hrun
  refine ⟨hevolves, fun out hout => ?_⟩
  obtain ⟨t, status, hmem, rfl⟩ := mem_outcomes.mp hout
  refine ⟨t, (List.of_mem_zip hmem).1, rfl, fun hthere => ?_⟩
  rw [hcached t status hmem hthere]
  rfl

/-- **The output of a task that ended well is there in the end**, whatever became of the other tasks,
and it is a file if the task wrote it. -/
theorem exists_of_isSuccess (htools : tools.Tidy) {outputs : String → Prop}
    (houtputs : ∀ t ∈ ts, outputs (t.target o))
    (havoids : ∀ path, outputs path → AvoidsScratch w.disk.cwd path)
    (hlacks : w.disk.Lacks InScratch) {r : DrainReport} (hrun : runInOrder tools o ts w = (r, w'))
    {out : TaskOutcome} (hout : out ∈ r.outcomes) (hsuccess : out.status.isSuccess = true) :
    ∃ t ∈ ts, t.outputPath = out.output ∧ w'.disk.exists? (t.target o) = true ∧
      (out.status = .written → w'.disk.isFile (t.target o) = true) := by
  obtain ⟨-, -, hthere⟩ := runFrom_cases (n := 0) htools houtputs havoids hlacks rfl
  rw [← (runInOrder_eq tools o ts w).2, hrun] at hthere
  obtain rfl := congrArg Prod.fst hrun
  obtain ⟨t, status, hmem, rfl⟩ := mem_outcomes.mp hout
  cases status with
  | none => cases hsuccess
  | some status => exact ⟨t, (List.of_mem_zip hmem).1, rfl, hthere t status hmem hsuccess⟩

/-- An output was found only if the status of its task says so. -/
theorem mem_runFrom_of_cached {out : TaskOutcome} (hout : out ∈ (runInOrder tools o ts w).1.outcomes)
    (hcached : out.status = .cached) : some .cached ∈ (runFrom tools o 0 ts w).1 := by
  obtain ⟨t, status, hmem, rfl⟩ := mem_outcomes.mp hout
  cases status with
  | none => cases hcached
  | some status =>
      obtain rfl : status = .cached := hcached
      exact (List.of_mem_zip hmem).2

/-- What outcomes say of the tasks, whatever became of them. -/
theorem map_outcomes (tools : Toolchain σ) (o : MergeOptions) (ts : List MergeTask) (w : World σ) :
    (runInOrder tools o ts w).1.outcomes.map (fun out => (out.output, out.keys)) =
      ts.map fun t => (t.outputPath, t.keys) := by
  have hfst : (ts.zip (runFrom tools o 0 ts w).1).map Prod.fst = ts :=
    List.map_fst_zip (Nat.le_of_eq (length_runFrom tools o 0 ts w).symm)
  conv_rhs => rw [← hfst]
  rw [(runInOrder_eq tools o ts w).1, ← List.map_uncurry_zip_eq_zipWith, List.map_map, List.map_map]
  rfl

/-- The report of a pool that finds all its outputs. -/
def reportOfFound (ts : List MergeTask) : DrainReport where
  outcomes := ts.map fun t => ⟨t.outputPath, t.keys, .cached⟩
  peak := if ts.isEmpty then 0 else 1
  progress := progressOf ts.length (ts.map MergeTask.outputPath)

/-- **A pool that finds all its outputs does nothing**, whatever its tool would do. -/
theorem runInOrder_of_exists (tools : Toolchain σ) (hforce : o.force = false)
    (hthere : ∀ t ∈ ts, w.disk.exists? (t.target o) = true) :
    runInOrder tools o ts w = (reportOfFound ts, w) := by
  have houtcomes : List.zipWith outcomeOf ts (ts.map fun _ => some .cached) =
      ts.map fun t => ⟨t.outputPath, t.keys, .cached⟩ := by
    rw [List.zipWith_map_right, List.zipWith_self]
    rfl
  have hended : ∀ us : List MergeTask, (us.zip (us.map fun _ => some TaskStatus.cached)).filterMap
      (fun e => e.2.map fun _ => e.1.outputPath) = us.map MergeTask.outputPath := by
    intro us
    induction us with
    | nil => rfl
    | cons t rest ih => exact congrArg (t.outputPath :: ·) ih
  rw [runInOrder, runFrom_of_exists tools hforce hthere]
  dsimp only
  rw [houtcomes, hended, reportOfFound]

end MergePool

end CharacterArt
