import CharacterArt.Proofs.Merge.Locality
import CharacterArt.Proofs.Reconciliation.Attempts
import CharacterArt.Proofs.Reconciliation.Merging
import CharacterArt.Proofs.Reconciliation.Walk

/-!
# Reconciliations of disks that agree

A reconciliation walks the outputs, asks the tool about pictures, and has the tool join them.  If
what the tool answers and writes depends on the files alone, then disks that hold the same are mended
in the same way, whatever else the tool remembers.

## Main Definitions

* `Toolchain.Observes` — a tool that goes by the files when it looks at a picture
* `Reconciliation.State.Agrees` — states in which the same is there and the same is known
* `Reconciliation.Mending.Agrees` — work that goes one way in such states

## Main Results

* `Reconciliation.isLocal_mergeInPlace` — a merge in place goes by the files
* `Reconciliation.reconcile_agrees` — disks that hold the same are mended in the same way
-/

namespace CharacterArt

/-- What a tool says of a picture depends on the files, and on nothing that it remembers. -/
def Toolchain.Observes {σ : Type} (tools : Toolchain σ) : Prop :=
  ∀ image (w w' : World σ), w.disk.AgreesOn (fun _ => True) w'.disk →
    (tools.probe image w').1 = (tools.probe image w).1

/-- The tool that works in process goes by the files. -/
theorem Toolchain.observes_inProcess (σ : Type) : (Toolchain.inProcess : Toolchain σ).Observes := by
  intro image w w' h
  unfold inProcess InProcess.reading InProcess.probe
  dsimp only
  rw [Files.readPicture_congr h fun _ _ => trivial]
  cases (Files.readPicture w.disk image).map Picture.isOpaque <;> rfl

namespace Reconciliation

variable {σ α β : Type} {tools : Toolchain σ} {s s' : State σ} {w w' : World σ}

/-- A walk finds the same on disks that hold the same. -/
theorem outputsIn_agrees {d d' : Files} (h : d.AgreesOn (fun _ => True) d') (root : String) :
    outputsIn d' root = outputsIn d root :=
  outputsIn_congr (h.resolve_eq fun _ _ => trivial) fun R _ l _ _ => by rw [h.node?_eq _ trivial]

/-! ### Merges in place -/

/-- Copying a file goes by the files. -/
theorem isLocal_copy {cwd : Location} {scope : Disk.Scope} (source : String) {target : String}
    (htarget : scope.files (Path.place cwd target)) :
    (Work.change fun d => Files.copy d source target : Work σ Unit).run.IsLocal cwd scope
      (fun _ => True) := by
  refine Work.isLocal_change (Work.evolves_change fun d d' hcwd hd => ?_) fun d d' _ h =>
    Files.sameEnd_copy h (fun _ _ => trivial) fun _ _ => trivial
  refine Disk.evolves_copy (Files.copy_eq_ok_iff.mp hd) (.inl ?_)
  rwa [hcwd]

/-- A merge goes by the files, when its scratch directory is there. -/
theorem isLocal_mergeWork (htidy : tools.Tidy) (hdet : tools.Deterministic)
    (target donor : String) (cwd : Location) :
    (mergeWork tools target donor).run.IsLocal cwd (producingIn scratch cwd (· = target))
      (fun _ => True) := by
  have hsize : ∀ path, (Work.look (Files.readPictureSize · path) : Work σ (Nat × Nat)).run.IsLocal cwd
      (producingIn scratch cwd (· = target)) (fun _ => True) := fun path =>
    Work.isLocal_look fun d d' _ h => Files.inspectPicture_congr h fun _ _ => trivial
  refine Work.isLocal_bind (hsize target) fun ⟨width, height⟩ _ => ?_
  refine Work.isLocal_bind (hsize donor) fun own _ => ?_
  refine Work.isLocal_bind (MergeTask.isLocal_fitMask .mend (fun _ => id) (fun _ _ => trivial) htidy
    hdet (by decide) width height own fun _ _ => trivial) fun mask _ => ?_
  refine Work.isLocal_bind (MergeTask.isLocal_call .mend (fun _ => id) (fun _ _ => trivial)
    (by decide) (htidy.copyAlpha target mask _) (hdet.copyAlpha target mask _)
    fun _ _ _ _ => trivial) fun _ _ => ?_
  exact isLocal_copy joined ⟨target, rfl, rfl⟩

/-- **A merge in place goes by the files.** -/
theorem isLocal_mergeInPlace (htidy : tools.Tidy) (hdet : tools.Deterministic)
    (target donor : String) (cwd : Location) :
    (mergeInPlace tools scratch target donor).run.IsLocal cwd
      (producingIn scratch cwd (· = target)) (fun _ => True) := by
  rw [mergeInPlace_eq]
  exact Work.isLocal_withScratch .mend (fun _ => id) (fun l hl => .inr ⟨scratch, .mend, hl⟩)
    (fun _ _ => trivial) (isLocal_mergeWork htidy hdet target donor cwd)

/-! ### States that agree -/

/-- Two states hold the same files and the same answers. -/
structure State.Agrees (s s' : State σ) : Prop where
  disk : s.world.disk.AgreesOn (fun _ => True) s'.world.disk
  opacity_eq : s'.opacity = s.opacity

/-- Work ends in one way in states that agree, and leaves states that agree. -/
def Mending.Agrees (x : Mending σ α) : Prop :=
  ∀ s s' : State σ, s.Agrees s' →
    (x.run.run s').1 = (x.run.run s).1 ∧ (x.run.run s).2.Agrees (x.run.run s').2

namespace Mending

theorem agrees_pure (a : α) : (pure a : Mending σ α).Agrees :=
  fun _ _ h => ⟨rfl, h⟩

/-- **Work in two parts goes one way if both parts do.** -/
theorem Agrees.bind {x : Mending σ α} {f : α → Mending σ β} (hx : x.Agrees)
    (hf : ∀ a, (f a).Agrees) : (x >>= f).Agrees := by
  intro s s' h
  obtain ⟨hanswer, hleft⟩ := hx s s' h
  rw [run_bind, run_bind]
  match hrun : x.run.run s, hrun' : x.run.run s' with
  | (.ok a, t), (.ok a', t') =>
      rw [hrun, hrun'] at hanswer hleft
      cases hanswer
      exact hf a t t' hleft
  | (.error e, t), (.error e', t') =>
      rw [hrun, hrun'] at hanswer hleft
      cases hanswer
      exact ⟨rfl, hleft⟩
  | (.ok a, t), (.error e, t') =>
      rw [hrun, hrun'] at hanswer
      cases hanswer
  | (.error e, t), (.ok a, t') =>
      rw [hrun, hrun'] at hanswer
      cases hanswer

end Mending

/-! ### Mending -/

section Mend

variable (htidy : tools.Tidy) (hobserves : tools.Observes)

include htidy hobserves in
/-- Whether an output is opaque is answered in one way. -/
theorem agrees_isOpaque (o : OutputFile) : (isOpaque tools o).Agrees := by
  intro s s' h
  rw [run_isOpaque, run_isOpaque, h.opacity_eq]
  have hanswer := hobserves o.path s.world s'.world h.disk
  -- looking at a picture leaves the files as they are
  have hleft : (tools.probe o.path s.world).2.disk.AgreesOn (fun _ => True)
      (tools.probe o.path s'.world).2.disk := by
    rw [htidy.probe, htidy.probe]
    exact h.disk
  cases s.opacity[o.relative]? with
  | some answer => exact ⟨rfl, h⟩
  | none =>
      match hprobe : tools.probe o.path s.world, hprobe' : tools.probe o.path s'.world with
      | (result, t), (result', t') =>
          rw [hprobe, hprobe'] at hanswer hleft
          cases hanswer
          rcases result with (_ | _ | _) | answer
          all_goals exact ⟨rfl, hleft, rfl⟩

include htidy hobserves in
theorem agrees_firstDonor (os : List OutputFile) : (firstDonor tools os).Agrees := by
  induction os with
  | nil => exact Mending.agrees_pure none
  | cons o rest ih =>
      refine (agrees_isOpaque htidy hobserves o).bind fun answer => ?_
      cases answer with
      | true => exact ih
      | false => exact Mending.agrees_pure _

variable (hdet : tools.Deterministic)

include htidy hdet in
/-- A donor is merged in one way. -/
theorem agrees_mend (target donor : OutputFile) : (mend tools target donor).Agrees := by
  intro s s' h
  obtain ⟨hresult, hleft⟩ := (isLocal_mergeInPlace htidy hdet target.path donor.path
    s.world.disk.cwd).run_agrees rfl h.disk
  rw [run_mend, run_mend]
  match hmerge : (mergeInPlace tools scratch target.path donor.path).run.run s.world,
      hmerge' : (mergeInPlace tools scratch target.path donor.path).run.run s'.world with
  | (result, t), (result', t') =>
      rw [hmerge, hmerge'] at hresult hleft
      cases hresult
      rcases result with (_ | _ | _) | _
      all_goals exact ⟨rfl, hleft, by simp only [h.opacity_eq]⟩

include htidy hobserves hdet

theorem agrees_mendTarget (outputs : List OutputFile) (path : String) :
    (mendTarget tools outputs path).Agrees := by
  unfold mendTarget
  split
  · exact Mending.agrees_pure none
  · refine (agrees_firstDonor htidy hobserves _).bind fun found => ?_
    cases found with
    | none => exact Mending.agrees_pure none
    | some donor =>
        refine (agrees_mend htidy hdet _ donor).bind fun worked => ?_
        cases worked <;> exact Mending.agrees_pure _

theorem agrees_mendAll (outputs : List OutputFile) (paths : List String) :
    (mendAll tools outputs paths).Agrees := by
  induction paths with
  | nil => exact Mending.agrees_pure []
  | cons path rest ih =>
      exact (agrees_mendTarget htidy hobserves hdet outputs path).bind fun _ => ih.bind fun _ =>
        Mending.agrees_pure _

/-- **Disks that hold the same are mended in the same way**: the report is the same, and so is what
is left. -/
theorem reconcile_agrees (h : w.disk.AgreesOn (fun _ => True) w'.disk) (root : String)
    (missing : Diagnostics) :
    (reconcile tools root missing w').1 = (reconcile tools root missing w).1 ∧
      (reconcile tools root missing w).2.disk.AgreesOn (fun _ => True)
        (reconcile tools root missing w').2.disk := by
  obtain ⟨hresult, hleft⟩ := agrees_mendAll htidy hobserves hdet (outputsIn w.disk root)
    (targets missing) ⟨w, ∅⟩ ⟨w', ∅⟩ ⟨h, rfl⟩
  unfold reconcile
  rw [outputsIn_agrees h]
  exact ⟨congrArg (Except.map reportOf) hresult, hleft.disk⟩

end Mend

end Reconciliation

end CharacterArt
