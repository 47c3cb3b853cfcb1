import CharacterArt.Proofs.Disk.Agreement
import CharacterArt.Proofs.Job
import CharacterArt.Proofs.Merge.Effects

/-!
# What a task sees

A task looks at the way to its output, at its mask if that is a file, and at its scratch directory.
On disks that agree there it takes the same steps and leaves the same behind, provided that the tool
goes by the files that it is told to read.  This is said of every single step, since other tasks may
act between two of them.

## Main Definitions

* `Job.IsLocal` — every step stays in scope, and goes by what is in view
* `Call.DependsOn`, `Toolchain.Deterministic` — calls that go by the files they are told to read
* `MergeTask.Sees` — the places that a task sees

## Main Results

* `Job.IsLocal.bind`, `Job.IsLocal.run_agrees` — jobs one after the other, and a job on two disks
* `Job.IsLocal.evolves_run`, `Job.IsLocal.everywhere` — what a job leaves, and how it goes by all files
* `Toolchain.deterministic_inProcess` — the tool that works in process goes by the files
* `MergeTask.isLocal_job`, `MergeTask.isLocal_job_everywhere` — a task is local
-/

namespace CharacterArt

namespace Job

variable {σ α β : Type} {cwd : Location} {s : Disk.Scope} {view : Location → Prop}
  {j : Job (World σ) α}

/-- Every step of a job stays in scope, and on disks that agree on the places in view it goes on in
the same way and leaves disks that agree there. -/
inductive IsLocal (cwd : Location) (s : Disk.Scope) (view : Location → Prop) :
    Job (World σ) α → Prop where
  | done (a : α) : IsLocal cwd s view (.done a)
  | step {change : World σ → World σ} {next : World σ → Job (World σ) α}
      (evolves : ∀ w : World σ, w.disk.cwd = cwd → w.disk.Evolves s (change w).disk)
      (agrees : ∀ w w' : World σ, w.disk.cwd = cwd → w.disk.AgreesOn view w'.disk →
        next w' = next w ∧ (change w).disk.AgreesOn view (change w').disk)
      (rest : ∀ w : World σ, w.disk.cwd = cwd → IsLocal cwd s view (next w)) :
      IsLocal cwd s view (.step change next)

/-- **Jobs one after the other are local if both are**, the second one for the values that the first
one may end with. -/
theorem IsLocal.bind {f : α → Job (World σ) β} (hj : j.IsLocal cwd s view)
    (hf : ∀ a, j.Yields a → (f a).IsLocal cwd s view) : (j >>= f).IsLocal cwd s view := by
  induction hj with
  | done a => exact hf a (.done a)
  | step evolves agrees rest ih =>
      refine .step evolves (fun w w' hcwd h => ?_)
        fun w hcwd => ih w hcwd fun a ha => hf a (.step w ha)
      obtain ⟨hnext, hchange⟩ := agrees w w' hcwd h
      exact ⟨by rw [hnext], hchange⟩

/-- **A local job ends in one way on disks that agree on the places in view.** -/
theorem IsLocal.run_agrees {w w' : World σ} (hj : j.IsLocal cwd s view) (hcwd : w.disk.cwd = cwd)
    (h : w.disk.AgreesOn view w'.disk) :
    (j.run w').1 = (j.run w).1 ∧ (j.run w).2.disk.AgreesOn view (j.run w').2.disk := by
  induction hj generalizing w w' with
  | done a => exact ⟨rfl, h⟩
  | @step change next evolves agrees rest ih =>
      obtain ⟨hnext, hchange⟩ := agrees w w' hcwd h
      have hrun : (Job.step change next).run w' = (next w).run (change w') := by
        rw [← hnext]
        rfl
      rw [hrun]
      exact ih w hcwd ((evolves w hcwd).cwd.trans hcwd) hchange

/-- A local job that nothing disturbs changes nothing out of scope. -/
theorem IsLocal.evolves_run {w : World σ} (hj : j.IsLocal cwd s view) (hcwd : w.disk.cwd = cwd) :
    w.disk.Evolves s (j.run w).2.disk := by
  induction hj generalizing w with
  | done a => exact .refl s w.disk
  | @step change next evolves agrees rest ih =>
      have hfirst := evolves w hcwd
      exact hfirst.trans (ih w hcwd (hfirst.cwd.trans hcwd))

/-- **A job that has all in view that it may change goes by the files**: on disks that hold the same
it leaves disks that hold the same. -/
theorem IsLocal.everywhere (hj : j.IsLocal cwd s view)
    (hs : ∀ l, s.scratch l ∨ s.files l ∨ s.ways l → view l) : j.IsLocal cwd s (fun _ => True) := by
  induction hj with
  | done a => exact .done a
  | @step change next evolves agrees rest ih =>
      refine .step evolves (fun w w' hcwd h => ?_) ih
      obtain ⟨hnext, hchange⟩ := agrees w w' hcwd (h.mono fun _ _ => trivial)
      refine ⟨hnext, hchange.cwd_eq, fun l _ => ?_⟩
      -- out of view nothing changes on either disk
      have hkeep : ∀ v : World σ, v.disk.cwd = cwd → ¬ view l →
          (change v).disk.node? l = v.disk.node? l := by
        intro v hv hl
        cases (evolves v hv).change l with
        | keep hkeep => exact hkeep
        | scratch hscratch => exact absurd (hs l (.inl hscratch)) hl
        | make hways => exact absurd (hs l (.inr (.inr hways))) hl
        | write hfiles => exact absurd (hs l (.inr (.inl hfiles))) hl
      by_cases hl : view l
      · exact hchange.node?_eq l hl
      · rw [hkeep w' (h.cwd_eq.trans hcwd) hl, hkeep w hcwd hl, h.node?_eq l trivial]

end Job

/-! ### Tools that go by files -/

/-- The answer of a call and what it leaves beside a file depend on the files that it is told to read
and on what stands beside that file before. -/
def Call.DependsOn {σ α : Type} (c : Call σ α) (sources : List String) (target : String) : Prop :=
  ∀ w w' : World σ, w.disk.AgreesOn (fun l =>
      (∃ path ∈ target :: sources, Path.Visits w.disk.cwd path l) ∨
        (Path.place w.disk.cwd target).dropLast <+: l) w'.disk →
    (c w').1 = (c w).1 ∧
      (c w).2.disk.AgreesOn ((Path.place w.disk.cwd target).dropLast <+: ·) (c w').2.disk

/-- A tool is deterministic: what it answers and what it writes depends on the files that it is told
to read and on the directory that it is told to write to, and on nothing that it remembers. -/
structure Toolchain.Deterministic {σ : Type} (tools : Toolchain σ) : Prop where
  resize : ∀ source width height target,
    (tools.resize source width height target).DependsOn [source] target
  copyAlpha : ∀ base mask target, (tools.copyAlpha base mask target).DependsOn [base, mask] target
  quantize : ∀ image, (tools.quantize image).DependsOn [] image

/-- A call that changes files goes by the files that it reads. -/
theorem Call.dependsOn_writing {σ : Type} {f : Files → Except Error Files} {sources : List String}
    {target : String} (h : ∀ places d d', d.AgreesOn places d' →
      (∀ path ∈ target :: sources, ∀ l, Path.Visits d.cwd path l → places l) →
      Disk.SameEnd places (f d) (f d')) :
    (InProcess.writing f : Call σ Unit).DependsOn sources target := by
  intro w w' hagrees
  have hend := h _ _ _ hagrees fun path hpath l hl => .inl ⟨path, hpath, hl⟩
  unfold InProcess.writing
  rcases hend.cases with ⟨e, hd, hd'⟩ | ⟨d, d', hd, hd', hmade⟩
  · rw [hd, hd']
    exact ⟨rfl, hagrees.mono fun l hl => .inr hl⟩
  · rw [hd, hd']
    exact ⟨rfl, hmade.mono fun l hl => .inr hl⟩

/-- A picture that is made from another one is written in one way on disks that agree on both
files. -/
theorem Files.sameEnd_writePicture_of_read {places : Location → Prop} {d d' : Files}
    {source target : String} (h : d.AgreesOn places d')
    (hsource : ∀ l, Path.Visits d.cwd source l → places l)
    (htarget : ∀ l, Path.Visits d.cwd target l → places l) (f : Picture → Picture) :
    Disk.SameEnd places (do Files.writePicture d target (f (← Files.readPicture d source)))
      (do Files.writePicture d' target (f (← Files.readPicture d' source))) := by
  rw [Files.readPicture_congr h hsource]
  cases Files.readPicture d source with
  | error e => exact .error e
  | ok p => exact Files.sameEnd_writePicture h htarget (f p)

/-- The tool that works in process goes by the files that it is told to read. -/
theorem Toolchain.deterministic_inProcess (σ : Type) :
    (Toolchain.inProcess : Toolchain σ).Deterministic where
  resize source width height target := by
    refine Call.dependsOn_writing fun places d d' h hpaths => ?_
    exact Files.sameEnd_writePicture_of_read h (hpaths source (by simp)) (hpaths target (by simp)) _
  copyAlpha base mask target := by
    refine Call.dependsOn_writing fun places d d' h hpaths => ?_
    unfold InProcess.copyAlpha
    rw [Files.readPicture_congr h (hpaths base (by simp))]
    cases Files.readPicture d base with
    | error e => exact .error e
    | ok p =>
        exact Files.sameEnd_writePicture_of_read h (hpaths mask (by simp)) (hpaths target (by simp)) _
  quantize image := by
    refine Call.dependsOn_writing fun places d d' h hpaths => ?_
    exact Files.sameEnd_writePicture_of_read h (hpaths image (by simp)) (hpaths image (by simp)) _

/-! ### Work -/

namespace Work

variable {σ α β : Type} {cwd : Location} {s : Disk.Scope} {view : Location → Prop}

theorem isLocal_pure (a : α) : (pure a : Work σ α).run.IsLocal cwd s view :=
  .done _

/-- Work in two parts is local if both parts are. -/
theorem isLocal_bind {x : Work σ α} {f : α → Work σ β} (hx : x.run.IsLocal cwd s view)
    (hf : ∀ a, x.run.Yields (.ok a) → (f a).run.IsLocal cwd s view) :
    (x >>= f).run.IsLocal cwd s view := by
  refine Job.IsLocal.bind hx fun result hresult => ?_
  cases result with
  | ok a => exact hf a hresult
  | error e => exact .done _

/-- A call is local if it stays in scope and goes by what is in view. -/
theorem isLocal_call {c : Call σ α} (hscope : (call c).Evolves cwd s)
    (hview : ∀ w w' : World σ, w.disk.cwd = cwd → w.disk.AgreesOn view w'.disk →
      (c w').1 = (c w).1 ∧ (c w).2.disk.AgreesOn view (c w').2.disk) :
    (call c).run.IsLocal cwd s view := by
  refine .step hscope (fun w w' hcwd h => ?_) fun _ _ => .done _
  obtain ⟨hanswer, hdisk⟩ := hview w w' hcwd h
  exact ⟨by rw [hanswer], hdisk⟩

theorem isLocal_look {f : Files → Except Error α}
    (hf : ∀ d d' : Files, d.cwd = cwd → d.AgreesOn view d' → f d' = f d) :
    (look f : Work σ α).run.IsLocal cwd s view := by
  refine isLocal_call (evolves_look f) fun w w' hcwd h => ?_
  rw [hf w.disk w'.disk hcwd h]
  cases f w.disk <;> exact ⟨rfl, h⟩

theorem isLocal_change {f : Files → Except Error Files}
    (hscope : (change f : Work σ Unit).Evolves cwd s)
    (hf : ∀ d d' : Files, d.cwd = cwd → d.AgreesOn view d' → Disk.SameEnd view (f d) (f d')) :
    (change f : Work σ Unit).run.IsLocal cwd s view := by
  refine isLocal_call hscope fun w w' hcwd h => ?_
  rcases (hf w.disk w'.disk hcwd h).cases with ⟨e, hd, hd'⟩ | ⟨d, d', hd, hd', hmade⟩
  · rw [hd, hd']
    exact ⟨rfl, h⟩
  · rw [hd, hd']
    exact ⟨rfl, hmade⟩

/-- A call of a deterministic tool goes by what is in view, if its files and what stands beside its
target are. -/
theorem isLocal_call_of_dependsOn {c : Call σ α} {sources : List String} {target : String}
    (hscope : (call c).Evolves cwd s) (hstays : c.StaysBeside target)
    (hdepends : c.DependsOn sources target)
    (hpaths : ∀ path ∈ target :: sources, ∀ l, Path.Visits cwd path l → view l)
    (hbeside : ∀ l, (Path.place cwd target).dropLast <+: l → view l) :
    (call c).run.IsLocal cwd s view := by
  refine isLocal_call hscope fun w w' hcwd h => ?_
  subst hcwd
  obtain ⟨hanswer, hleft⟩ := hdepends w w' <| h.mono fun l hl => by
    rcases hl with ⟨path, hpath, hl⟩ | hl
    · exact hpaths path hpath l hl
    · exact hbeside l hl
  refine ⟨hanswer, (hstays w).agreesOn ?_ h hleft (fun _ => id) fun _ => id⟩
  have hstays' := hstays w'
  rwa [h.cwd_eq] at hstays'

/-- Work in a scratch directory is local if it is so in there. -/
theorem isLocal_withScratch {scratch : String} {work : Work σ α} (h : IsScratch scratch)
    (hs : ∀ l, Path.place [] scratch <+: l → s.scratch l)
    (hways : ∀ l, Path.Passes cwd scratch l → s.ways l)
    (hview : ∀ l, Path.Visits cwd scratch l → view l) (hwork : work.run.IsLocal cwd s view) :
    (withScratch scratch work).run.IsLocal cwd s view := by
  obtain ⟨name, hplace, hplace'⟩ := h.place_eq cwd
  have hne : Path.place cwd scratch ≠ [] := by
    rw [hplace]
    exact nofun
  have hbelow : ∀ m, Path.place cwd scratch <+: m → s.scratch m := by
    intro m hm
    rw [hplace, ← hplace'] at hm
    exact hs m hm
  refine isLocal_bind ?_ fun _ _ => ?_
  · refine isLocal_change (evolves_change fun d d' hcwd hd => ?_) fun d d' hcwd hagrees => ?_
    · refine Disk.evolves_makeDirs (Files.makeDirs_eq_ok_iff.mp hd) fun m hm => ?_
      rw [hcwd] at hm
      rcases hm with hm | rfl
      · exact .inl (hways m hm)
      · exact .inr (hbelow _ (List.prefix_refl _))
    · exact Files.sameEnd_makeDirs hagrees (by rwa [hcwd])
  · refine Job.IsLocal.bind hwork fun result _ => Job.IsLocal.bind ?_ fun _ _ => .done _
    refine .step (fun w hcwd => ?_) (fun w w' hcwd hagrees => ⟨rfl, ?_⟩) fun _ _ => .done _
    · exact Files.evolves_removeTree (by rwa [hcwd]) (by rwa [hcwd])
    · exact Files.agreesOn_removeTree hagrees (by rwa [hcwd]) (by rwa [hcwd])

end Work

/-! ### Tasks -/

/-- A path into a scratch directory visits nothing but the way there and what lies in it. -/
theorem IsScratch.visits_join {scratch name : String} {cwd l : Location} (h : IsScratch scratch)
    (hname : Path.IsName name) (hl : Path.Visits cwd (Path.join scratch name) l) :
    Path.Passes cwd scratch l ∨ Path.place [] scratch <+: l := by
  obtain ⟨own, hplace, hplace'⟩ := h.place_eq cwd
  rcases hl with hl | rfl
  · refine ((hname.passes_join scratch cwd l).mp hl).imp_right ?_
    rintro rfl
    exact ⟨[], by rw [List.append_nil, hplace, hplace']⟩
  · rw [hname.place_join, hplace, hplace']
    exact .inr (List.prefix_append _ _)

namespace MergeTask

variable {σ : Type} {tools : Toolchain σ} {o : MergeOptions} {scratch : String} {t : MergeTask}
  {cwd : Location} {s : Disk.Scope} {view : Location → Prop}

/-- The places that a task sees: those that the paths of its output and of its mask visit, if that is
a file, the way to its scratch directory, and what lies in there. -/
def Sees (o : MergeOptions) (scratch : String) (cwd : Location) (t : MergeTask) (l : Location) :
    Prop :=
  Path.Visits cwd (t.target o) l ∨ (∃ path, t.mask = some (.file path) ∧ Path.Visits cwd path l) ∨
    Path.Passes cwd scratch l ∨ Path.place [] scratch <+: l

section Staging

variable (h : IsScratch scratch) (hs : ∀ l, Path.place [] scratch <+: l → s.scratch l)
  (hview : ∀ l, Path.Passes cwd scratch l ∨ Path.place [] scratch <+: l → view l)

include h hs hview

theorem isLocal_writePicture {name : String} (hname : Path.IsName name) (p : Picture) :
    (Work.change fun d => Files.writePicture d (Path.join scratch name) p : Work σ Unit).run.IsLocal
      cwd s view := by
  refine Work.isLocal_change (evolves_writePicture h hname hs p) fun d d' hcwd hagrees => ?_
  subst hcwd
  exact Files.sameEnd_writePicture hagrees (fun l hl => hview l (h.visits_join hname hl)) p

/-- A call that writes into the scratch directory and reads files in view is local. -/
theorem isLocal_call {c : Call σ Unit} {sources : List String} {name : String}
    (hname : Path.IsName name) (hstays : c.StaysBeside (Path.join scratch name))
    (hdepends : c.DependsOn sources (Path.join scratch name))
    (hsources : ∀ path ∈ sources, ∀ l, Path.Visits cwd path l → view l) :
    (Work.call c).run.IsLocal cwd s view := by
  refine Work.isLocal_call_of_dependsOn (evolves_call h hname hs hstays) hstays hdepends ?_ ?_
  · intro path hpath l hl
    rcases List.mem_cons.mp hpath with rfl | hpath
    · exact hview l (h.visits_join hname hl)
    · exact hsources path hpath l hl
  · intro l hl
    rw [place_join_scratch h hname, List.dropLast_concat] at hl
    exact hview l (.inr hl)

theorem isLocal_stageMask {input : MaskInput}
    (hmask : ∀ path, input = .file path → ∀ l, Path.Visits cwd path l → view l) :
    (stageMask scratch input : Work σ _).run.IsLocal cwd s view := by
  cases input with
  | asset mask =>
      refine Work.isLocal_bind (isLocal_writePicture h hs hview (by decide) _) fun _ _ => ?_
      exact Work.isLocal_pure _
  | file path =>
      refine Work.isLocal_bind (Work.isLocal_look fun d d' hcwd hagrees => ?_) fun size _ => ?_
      · subst hcwd
        exact Files.inspectPicture_congr hagrees (hmask path rfl)
      · exact Work.isLocal_pure _

omit hs in
/-- A staged mask is in view. -/
theorem visits_of_stageMask {input : MaskInput} {path : String} {size : Nat × Nat}
    (hmask : ∀ path, input = .file path → ∀ l, Path.Visits cwd path l → view l)
    (hstaged : (stageMask scratch input : Work σ _).run.Yields (.ok (path, size))) :
    ∀ l, Path.Visits cwd path l → view l := by
  cases input with
  | asset mask =>
      obtain ⟨-, -, hstaged⟩ := Work.yields_bind hstaged
      cases Work.eq_of_yields_pure hstaged
      exact fun l hl => hview l (h.visits_join (by decide) hl)
  | file own =>
      obtain ⟨_, -, hstaged⟩ := Work.yields_bind hstaged
      cases Work.eq_of_yields_pure hstaged
      exact hmask path rfl

theorem isLocal_fitMask (htools : tools.Tidy) (hdet : tools.Deterministic) {name : String}
    (hname : Path.IsName name) (width height : Nat) {path : String} (size : Nat × Nat)
    (hpath : ∀ l, Path.Visits cwd path l → view l) :
    (fitMask tools width height (Path.join scratch name) (path, size)).run.IsLocal cwd s view := by
  obtain ⟨w, k⟩ := size
  unfold fitMask
  dsimp only
  split
  · exact Work.isLocal_pure path
  · refine Work.isLocal_bind (isLocal_call h hs hview hname (htools.resize _ _ _ _)
      (hdet.resize _ _ _ _) fun source hsource => ?_) fun _ _ => Work.isLocal_pure _
    rwa [List.mem_singleton.mp hsource]

omit hs in
/-- A fitted mask is in view. -/
theorem visits_of_fitMask {name : String} (hname : Path.IsName name) {width height : Nat}
    {path fitted : String} {size : Nat × Nat} (hpath : ∀ l, Path.Visits cwd path l → view l)
    (hfitted : (fitMask tools width height (Path.join scratch name) (path, size)).run.Yields
      (.ok fitted)) : ∀ l, Path.Visits cwd fitted l → view l := by
  obtain ⟨w, k⟩ := size
  unfold fitMask at hfitted
  dsimp only at hfitted
  split at hfitted
  · rwa [Work.eq_of_yields_pure hfitted]
  · obtain ⟨_, -, hfitted⟩ := Work.yields_bind hfitted
    rw [Work.eq_of_yields_pure hfitted]
    exact fun l hl => hview l (h.visits_join hname hl)

theorem isLocal_stage (htools : tools.Tidy) (hdet : tools.Deterministic)
    (hmask : ∀ path, t.mask = some (.file path) → ∀ l, Path.Visits cwd path l → view l) :
    (stage tools scratch (Path.join scratch "out.png") t).run.IsLocal cwd s view := by
  unfold stage
  split
  · exact isLocal_writePicture h hs hview (by decide) _
  · next input hinput =>
      have hinputs : ∀ path, input = .file path → ∀ l, Path.Visits cwd path l → view l := by
        rintro path rfl
        exact hmask path hinput
      refine Work.isLocal_bind (isLocal_writePicture h hs hview (by decide) _) fun _ _ => ?_
      refine Work.isLocal_bind (isLocal_stageMask h hs hview hinputs) fun mask hstaged => ?_
      obtain ⟨path, size⟩ := mask
      have hpath := visits_of_stageMask h hview hinputs hstaged
      refine Work.isLocal_bind
        (isLocal_fitMask h hs hview htools hdet (by decide) _ _ size hpath) fun fitted hfitted => ?_
      have hfitted := visits_of_fitMask h hview (by decide) hpath hfitted
      refine isLocal_call h hs hview (by decide) (htools.copyAlpha _ _ _) (hdet.copyAlpha _ _ _) ?_
      rintro source hsource l hl
      rcases List.mem_pair.mp hsource with rfl | rfl
      · exact hview l (h.visits_join (by decide) hl)
      · exact hfitted l hl

theorem isLocal_publish (htools : tools.Tidy) (hdet : tools.Deterministic)
    (hfiles : s.files (Path.place cwd (t.target o)))
    (htarget : ∀ l, Path.Visits cwd (t.target o) l → view l)
    (hmask : ∀ path, t.mask = some (.file path) → ∀ l, Path.Visits cwd path l → view l) :
    (t.publish tools o scratch).run.IsLocal cwd s view := by
  have hend : (Work.change (fun d =>
      Files.copy d (Path.join scratch "out.png") (t.target o)) >>= fun _ =>
        pure TaskStatus.written : Work σ TaskStatus).run.IsLocal cwd s view := by
    refine Work.isLocal_bind (Work.isLocal_change (Work.evolves_change fun d d' hcwd hd => ?_)
      fun d d' hcwd hagrees => ?_) fun _ _ => Work.isLocal_pure _
    · refine Disk.evolves_copy (Files.copy_eq_ok_iff.mp hd) (.inl ?_)
      rwa [hcwd]
    · subst hcwd
      exact Files.sameEnd_copy hagrees (fun l hl => hview l (h.visits_join (by decide) hl)) htarget
  unfold publish
  refine Work.isLocal_bind (isLocal_stage h hs hview htools hdet hmask) fun _ _ => ?_
  split
  · refine Work.isLocal_bind (isLocal_call h hs hview (by decide) (htools.quantize _)
      (hdet.quantize _) fun _ hsource => absurd hsource List.not_mem_nil) fun _ _ => hend
  · exact hend

end Staging

/-- Producing an output in a scratch directory is local. -/
theorem isLocal_withScratch_publish (htools : tools.Tidy) (hdet : tools.Deterministic)
    (h : IsScratch scratch) (cwd : Location) :
    (Work.withScratch scratch (t.publish tools o scratch)).run.IsLocal cwd
      (producingIn scratch cwd (· = t.target o)) (t.Sees o scratch cwd) := by
  have hview : ∀ l, Path.Passes cwd scratch l ∨ Path.place [] scratch <+: l →
      t.Sees o scratch cwd l := fun l hl => .inr (.inr hl)
  refine Work.isLocal_withScratch h (fun _ => id) (fun l hl => .inr ⟨scratch, h, hl⟩) ?_ ?_
  · intro l hl
    refine hview l (hl.imp_right ?_)
    rintro rfl
    obtain ⟨name, hplace, hplace'⟩ := h.place_eq cwd
    exact ⟨[], by rw [List.append_nil, hplace, hplace']⟩
  · exact isLocal_publish h (fun _ => id) hview htools hdet ⟨_, rfl, rfl⟩ (fun l => .inl)
      fun path hpath l hl => .inr (.inl ⟨path, hpath, hl⟩)

/-- **A task is local**: it changes nothing but its output, directories and its scratch directory, and
what it does depends on nothing but what it sees. -/
theorem isLocal_job (htools : tools.Tidy) (hdet : tools.Deterministic) (h : IsScratch scratch)
    (cwd : Location) : (t.job tools o scratch).run.IsLocal cwd
      (producingIn scratch cwd (· = t.target o)) (t.Sees o scratch cwd) := by
  have htarget : ∀ l, Path.Visits cwd (t.target o) l → t.Sees o scratch cwd l := fun l => .inl
  unfold job
  refine Work.isLocal_bind (Work.isLocal_look fun d d' hcwd hagrees => ?_) fun present _ => ?_
  · subst hcwd
    rw [hagrees.exists?_eq htarget]
  · split
    · exact Work.isLocal_pure _
    · refine Work.isLocal_bind (Work.isLocal_change (Work.evolves_change fun d d' hcwd hd => ?_)
        fun d d' hcwd hagrees => ?_) fun _ _ => isLocal_withScratch_publish htools hdet h cwd
      · refine Disk.evolves_makeAbove (Files.makeDirs_eq_ok_iff.mp hd) fun m hm => .inl (.inl ?_)
        rw [hcwd] at hm
        exact ⟨_, rfl, hm⟩
      · subst hcwd
        cases habove : Path.parent (t.target o) with
        | none => exact hagrees
        | some above =>
            exact Files.sameEnd_makeDirs hagrees fun l hl =>
              htarget l (.inl (Path.passes_of_parent habove hl))

/-- A task goes by the files: it has all in view that it may change. -/
theorem isLocal_job_everywhere (htools : tools.Tidy) (hdet : tools.Deterministic)
    (h : IsScratch scratch) (cwd : Location) : (t.job tools o scratch).run.IsLocal cwd
      (producingIn scratch cwd (· = t.target o)) (fun _ => True) := by
  refine (isLocal_job htools hdet h cwd).everywhere fun l hl => ?_
  rcases hl with hbelow | ⟨path, rfl, rfl⟩ | ⟨path, rfl, hway⟩ | ⟨other, hother, hway⟩
  · exact .inr (.inr (.inr hbelow))
  · exact .inl (.inr rfl)
  · exact .inl (.inl hway)
  · exact .inr (.inr (.inl (h.passes_of_passes hother hway)))

end MergeTask

end CharacterArt
