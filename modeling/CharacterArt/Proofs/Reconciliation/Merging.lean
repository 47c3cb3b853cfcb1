import CharacterArt.Proofs.Merge.Ends

/-!
# What one merge does

A merge that ends well joins the output and the donor, which is resized before if it has another
size, and copies the result over the output.  A merge that fails leaves every file as it was: the
copy is its last step.

## Main Definitions

* `Toolchain.Answers` — a tool whose calls give an answer or report an error
* `Reconciliation.IsMask`, `Reconciliation.Takes` — the mask of a merge, and what the output takes
* `Reconciliation.Lies` — a file outside the scratch directories

## Main Results

* `Reconciliation.answers_mergeInPlace` — a merge ends well or fails, if the tool answers
* `Reconciliation.mergeInPlace_cases` — what a merge leaves behind
-/

namespace CharacterArt

/-! ### Tools that answer -/

/-- A call gives an answer or reports an error. -/
def Call.Answers {σ α : Type} (c : Call σ α) : Prop :=
  ∀ w stop, (c w).1 = .error stop → ∃ e, stop = .failed e

/-- The calls that a reconciliation makes give an answer or report an error. -/
structure Toolchain.Answers {σ : Type} (tools : Toolchain σ) : Prop where
  probe : ∀ image, (tools.probe image).Answers
  resize : ∀ source width height target, (tools.resize source width height target).Answers
  copyAlpha : ∀ base mask target, (tools.copyAlpha base mask target).Answers

/-- The tool that works in process answers. -/
theorem Toolchain.answers_inProcess (σ : Type) : (Toolchain.inProcess : Toolchain σ).Answers := by
  have hwriting : ∀ f : Files → Except Error Files, (InProcess.writing f : Call σ Unit).Answers := by
    intro f w stop h
    unfold InProcess.writing at h
    split at h
    · cases h
    · next e _ => exact ⟨e, (Except.error.inj h).symm⟩
  refine ⟨fun image w stop h => ?_, fun _ _ _ _ => hwriting _, fun _ _ _ => hwriting _⟩
  unfold inProcess InProcess.reading at h
  dsimp only at h
  split at h
  · cases h
  · next e _ => exact ⟨e, (Except.error.inj h).symm⟩

namespace Work

variable {σ α : Type}

/-- Work ends well or fails. -/
def Answers (x : Work σ α) : Prop :=
  ∀ w stop w', x.run.run w = (.error stop, w') → ∃ e, stop = .failed e

end Work

namespace Reconciliation

variable {σ : Type} {tools : Toolchain σ} {target donor : String} {v v' w w' : World σ}
  {cwd : Location}

/-! ### The work of a merge -/

/-- Where the donor of a merge stands after it was resized. -/
def resized : String := Path.join scratch "mask.png"

/-- Where the tool puts what it joins. -/
def joined : String := Path.join scratch "merged.png"

/-- A merge, when its scratch directory is there. -/
def mergeWork (tools : Toolchain σ) (target donor : String) : Work σ Unit := do
  let (width, height) ← Work.look fun d => Files.readPictureSize d target
  let mask ← Work.look fun d => Files.readPictureSize d donor
  let fitted ← MergeTask.fitMask tools width height resized (donor, mask)
  Work.call (tools.copyAlpha target fitted joined)
  Work.change fun d => Files.copy d joined target

theorem mergeInPlace_eq (tools : Toolchain σ) (target donor : String) :
    mergeInPlace tools scratch target donor =
      Work.withScratch scratch (mergeWork tools target donor) :=
  rfl

/-- **A merge ends well or fails, if the tool answers.** -/
theorem answers_mergeInPlace (h : tools.Answers) (target donor : String) :
    (mergeInPlace tools scratch target donor).Answers := by
  have herror : ∀ e, ∃ e', Stop.failed e = .failed e' := fun e => ⟨e, rfl⟩
  refine Work.StopsOnly.withScratch herror ?_
  refine (Work.stopsOnly_look herror _).bind fun size => ?_
  refine (Work.stopsOnly_look herror _).bind fun mask => ?_
  refine (MergeTask.stopsOnly_fitMask h.resize _ _ _ _).bind fun fitted => ?_
  exact (Work.stopsOnly_call (h.copyAlpha _ _ _)).bind fun _ => Work.stopsOnly_change herror _

section Scope

variable {s : Disk.Scope} (htidy : tools.Tidy) (hs : ∀ l, Path.place [] scratch <+: l → s.scratch l)

include htidy hs

/-- A merge changes its scratch directory and the output. -/
theorem evolves_mergeWork (htarget : s.files (Path.place cwd target)) :
    (mergeWork tools target donor).Evolves cwd s := by
  refine (Work.evolves_look _).bind fun size => (Work.evolves_look _).bind fun mask => ?_
  refine (MergeTask.evolves_fitMask htidy .mend (by decide) hs _ _ _).bind fun fitted => ?_
  refine (MergeTask.evolves_call .mend (by decide) hs (htidy.copyAlpha _ _ _)).bind fun _ => ?_
  refine Work.evolves_change fun d d' hcwd hd => ?_
  refine Disk.evolves_copy (Files.copy_eq_ok_iff.mp hd) (.inl ?_)
  rwa [hcwd]

/-- A merge that fails changes its scratch directory alone. -/
theorem failsWithin_mergeWork : (mergeWork tools target donor).FailsWithin cwd s := by
  refine (Work.evolves_look _).bind_failsWithin fun size => ?_
  refine (Work.evolves_look _).bind_failsWithin fun mask => ?_
  refine (MergeTask.evolves_fitMask htidy .mend (by decide) hs _ _ _).bind_failsWithin
    fun fitted => ?_
  refine (MergeTask.evolves_call .mend (by decide) hs (htidy.copyAlpha _ _ _)).bind_failsWithin
    fun _ => ?_
  exact Work.failsWithin_change _

end Scope

/-! ### Merges that end well -/

/-- The mask of a merge: the donor itself if it has the size that is needed, or else what the tool
made of it in that size. -/
inductive IsMask (tools : Toolchain σ) (donor : String) (w : World σ) (width height : Nat) :
    String → World σ → Prop where
  | donor {ready : World σ} (hsize : Files.readPictureSize w.disk donor = .ok (width, height)) :
      IsMask tools donor w width height donor ready
  | resized {own : Nat × Nat} {early ready : World σ}
      (hsize : Files.readPictureSize w.disk donor = .ok own) (hdiffers : own ≠ (width, height))
      (hread : early.disk.read donor = w.disk.read donor)
      (hresize : tools.resize donor width height resized early = (.ok (), ready)) :
      IsMask tools donor w width height resized ready

/-- An output has taken the alpha of another one: the tool joined the two as they were, and the
result stands in the place of the output. -/
inductive Takes (tools : Toolchain σ) (target donor : String) (w w' : World σ) : Prop where
  | intro {width height : Nat} {mask : String} {ready done : World σ} {content : Content}
      (hsize : Files.readPictureSize w.disk target = .ok (width, height))
      (hmask : IsMask tools donor w width height mask ready)
      (htarget : ready.disk.read target = w.disk.read target)
      (hdonor : ready.disk.read donor = w.disk.read donor)
      (hjoin : tools.copyAlpha target mask joined ready = (.ok (), done))
      (hresult : done.disk.read joined = .ok content)
      (hread : w'.disk.read target = .ok content)

/-- What an output has taken depends on the files alone. -/
theorem Takes.congr (h : Takes tools target donor v v')
    (htarget : v.disk.read target = w.disk.read target)
    (hdonor : v.disk.read donor = w.disk.read donor)
    (hresult : w'.disk.read target = v'.disk.read target) : Takes tools target donor w w' := by
  cases h with
  | @intro width height mask ready done content hsize hmask htarget' hdonor' hjoin hdone hread =>
      have hmask' : IsMask tools donor w width height mask ready := by
        cases hmask with
        | donor hsize =>
            exact .donor (hsize ▸ Files.inspectPicture_of_read hdonor.symm)
        | resized hsize hdiffers hearly hresize =>
            exact .resized (hsize ▸ Files.inspectPicture_of_read hdonor.symm) hdiffers
              (hearly.trans hdonor) hresize
      exact .intro (hsize ▸ Files.inspectPicture_of_read htarget.symm) hmask'
        (htarget'.trans htarget) (hdonor'.trans hdonor) hjoin hdone (hresult.trans hread)

/-- A file stands outside the scratch directories, at the end of a way of directories. -/
structure Lies (d : Files) (path : String) : Prop where
  avoids : AvoidsScratch d.cwd path
  way : ∀ m, Path.Passes d.cwd path m → d.node? m = some .directory
  file : ∃ content, d.node? (Path.place d.cwd path) = some (.file content)

section Lies

variable {d d' : Files} {path : String} {s : Disk.Scope}

/-- A file outside the scratch directories still stands there, and it is read as before, if no file was
written. -/
theorem Lies.evolves (h : Lies d path) (hd : d.Evolves s d') (hs : ∀ l, s.scratch l → InScratch l)
    (hfiles : ¬ s.files (Path.place d.cwd path)) :
    Lies d' path ∧ d'.read path = d.read path := by
  have hnode : ∀ m, Path.Passes d.cwd path m ∨ m = Path.place d.cwd path →
      d'.node? m = d.node? m := by
    rintro m (hm | rfl)
    · rw [h.way m hm]
      exact hd.directory (fun hl => h.avoids m (.inl hm) (hs m hl)) (h.way m hm)
    · obtain ⟨content, hfile⟩ := h.file
      refine hd.node?_eq (fun hl => h.avoids _ (.inr rfl) (hs _ hl)) hfiles ?_
      rw [hfile]
      exact nofun
  refine ⟨⟨?_, fun m hm => ?_, ?_⟩, Disk.read_congr hd.cwd hnode⟩
  · rw [hd.cwd]
    exact h.avoids
  · rw [hd.cwd] at hm
    rw [hnode m (.inl hm)]
    exact h.way m hm
  · rw [hd.cwd, hnode _ (.inr rfl)]
    exact h.file

end Lies

/-- A file that is found outside the scratch directories stands there. -/
theorem lies_of_isFile {d : Files} {path : String} (havoids : AvoidsScratch d.cwd path)
    (hfile : d.isFile path = true) : Lies d path := by
  obtain ⟨content, hfound⟩ := Disk.isFile_iff.mp hfile
  obtain ⟨⟨-, hway⟩, hnode⟩ := Disk.find?_eq_some_iff.mp hfound
  exact ⟨havoids, hway, content, hnode⟩

/-- **A merge that ends well joins the output and the donor.** -/
theorem takes_of_mergeWork (htidy : tools.Tidy) (htarget : Lies v.disk target)
    (hdonor : Lies v.disk donor)
    (hrun : (mergeWork tools target donor).run.run v = (.ok (), v')) :
    Takes tools target donor v v' ∧ ∃ content, v'.disk.find? target = some (.file content) := by
  obtain ⟨⟨width, height⟩, _, hlook, hrun⟩ := Work.exists_of_run_bind hrun
  obtain ⟨hsize, rfl⟩ := Work.of_run_look hlook
  obtain ⟨own, _, hlook, hrun⟩ := Work.exists_of_run_bind hrun
  obtain ⟨hown, rfl⟩ := Work.of_run_look hlook
  obtain ⟨mask, ready, hfit, hrun⟩ := Work.exists_of_run_bind hrun
  obtain ⟨_, done, hjoin, hcopy⟩ := Work.exists_of_run_bind hrun
  have hcopied := Work.of_run_change hcopy
  obtain ⟨content, hresult, hwrite⟩ := Disk.exists_write_of_copy (Files.copy_eq_ok_iff.mp hcopied)
  have hthere := Disk.find?_of_write hwrite
  -- only the scratch directory may have changed before the tool joins the two
  let s : Disk.Scope := { scratch := (Path.place [] scratch <+: ·) }
  have hscratch : ∀ l, s.scratch l → InScratch l := fun l hl => ⟨scratch, .mend, hl⟩
  have hready : v.disk.Evolves s ready.disk := by
    have hevolves : (MergeTask.fitMask tools width height resized (donor, own)).Evolves
        v.disk.cwd s :=
      MergeTask.evolves_fitMask htidy .mend (by decide) (fun _ => id) width height (donor, own)
    have hfitted := hevolves v rfl
    rwa [hfit] at hfitted
  refine ⟨.intro hsize ?_ (htarget.evolves hready hscratch id).2
    (hdonor.evolves hready hscratch id).2 hjoin hresult (Disk.read_eq_ok_iff.mpr hthere),
    content, hthere⟩
  unfold MergeTask.fitMask at hfit
  dsimp only at hfit
  split at hfit
  · next hsame =>
      cases hfit
      obtain rfl : own = (width, height) := hsame
      exact .donor hown
  · next hdiffers =>
      obtain ⟨_, middle, hresize, hfit⟩ := Work.exists_of_run_bind hfit
      cases hfit
      exact .resized hown hdiffers rfl hresize

/-! ### Merges in their scratch directory -/

/-- **What a merge leaves behind**: the output with the alpha of the donor, or nothing at all. -/
theorem mergeInPlace_cases (htidy : tools.Tidy) {result : Except Stop Unit}
    (hlacks : w.disk.Lacks InScratch) (htarget : Lies w.disk target) (hdonor : Lies w.disk donor)
    (hrun : (mergeInPlace tools scratch target donor).run.run w = (result, w')) :
    (result = .ok () → Takes tools target donor w w') ∧
    ∀ stop, result = .error stop →
      w.disk.Evolves (producing w.disk.cwd (fun _ => False)) w'.disk := by
  rw [mergeInPlace_eq] at hrun
  constructor
  · rintro rfl
    have havoids : ∀ path, path = target → AvoidsScratch w.disk.cwd path := by
      rintro path rfl
      exact htarget.avoids
    rcases Work.withScratch_steps .mend hlacks havoids hrun with
      ⟨-, e, he⟩ | ⟨d, middle, hmade, hworked, hrest⟩
    · cases he
    · have hscratch : ∀ l, Path.place [] scratch <+: l → InScratch l :=
        fun l hl => ⟨scratch, .mend, hl⟩
      have hlies : ∀ {path}, Lies w.disk path → Lies d path ∧ d.read path = w.disk.read path := by
        intro path hpath
        refine hpath.evolves hmade hscratch ?_
        rintro ⟨_, hnone, -⟩
        exact hnone
      have hevolves : (mergeWork tools target donor).Evolves w.disk.cwd
          (producingIn scratch w.disk.cwd (· = target)) :=
        evolves_mergeWork htidy (fun _ => id) ⟨target, rfl, rfl⟩
      have hmiddle := hevolves { w with disk := d } hmade.cwd
      rw [hworked] at hmiddle
      obtain ⟨hremoved, -, -⟩ := hrest hmiddle
      obtain ⟨htakes, content, hthere⟩ := takes_of_mergeWork htidy (hlies htarget).1
        (hlies hdonor).1 hworked
      have hthere' : w'.disk.find? target = some (.file content) := by
        refine hremoved.find?_eq (fun m hm hl => ?_) id hthere
        rw [hmiddle.cwd, hmade.cwd] at hm
        exact htarget.avoids m hm (hscratch m hl)
      exact htakes.congr (hlies htarget).2 (hlies hdonor).2
        (Disk.read_eq_of_find? hthere hthere')
  · rintro stop rfl
    rcases Work.withScratch_steps .mend hlacks (fun _ hnone => absurd hnone id) hrun with
      ⟨rfl, -⟩ | ⟨d, middle, hmade, hworked, hrest⟩
    · exact Disk.Evolves.refl _ _
    · exact (hrest (failsWithin_mergeWork htidy (fun _ => id) _ stop middle hmade.cwd hworked)).2.1

/-- **Merging a donor into an output writes the output alone**, and its scratch directory is gone. -/
theorem evolves_mergeInPlace (htidy : tools.Tidy) {target donor : String} {w w' : World σ}
    {result : Except Stop Unit} (hlacks : w.disk.Lacks InScratch)
    (havoids : AvoidsScratch w.disk.cwd target)
    (hrun : (mergeInPlace tools scratch target donor).run.run w = (result, w')) :
    w.disk.Evolves (producing w.disk.cwd (· = target)) w'.disk ∧ w'.disk.Lacks InScratch := by
  have hevolves : (mergeWork tools target donor).Evolves w.disk.cwd
      (producingIn scratch w.disk.cwd (· = target)) :=
    evolves_mergeWork htidy (fun _ => id) ⟨target, rfl, rfl⟩
  refine (Work.withScratch_cases .mend hevolves ?_ hlacks havoids hrun).imp_right And.left
  intro v v' a hwork
  obtain ⟨_, _, -, hwork⟩ := Work.exists_of_run_bind hwork
  obtain ⟨_, _, -, hwork⟩ := Work.exists_of_run_bind hwork
  obtain ⟨_, _, -, hwork⟩ := Work.exists_of_run_bind hwork
  obtain ⟨_, _, -, hwork⟩ := Work.exists_of_run_bind hwork
  exact Work.find?_of_copy hwork

end Reconciliation

end CharacterArt
