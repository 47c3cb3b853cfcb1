import CharacterArt.Proofs.Merge.Atomicity
import CharacterArt.Proofs.Merge.Contract
import CharacterArt.Proofs.Merge.Watching

/-!
# Pictures and masks of one size

A mask is in memory or in a file, and it may have any size.  A task puts it into its scratch directory,
or takes it where it is, and has it resized if it has another size than the picture.  So the tool is
only asked to join a picture and a mask of one size, and the output of the task is their composite.

## Main Definitions

* `MaskInput.Fits` — the mask in a given size as a picture
* `Sighting.merging` — the calls that joining a picture and a mask takes
* `MergeTask.Yields` — the picture that a task is to produce

## Main Results

* `MergeTask.sees_fitMask`, `MergeTask.fits_of_run_fitMask` — masks are resized if that is needed
* `MergeTask.sees_job` — the calls of a task
* `MergeTask.yields_of_job` — the output of a task
-/

namespace CharacterArt

variable {σ : Type} {tools : Toolchain σ} {brightness : Pixel → UInt8} {d d' : Files}
  {s : Disk.Scope} {w w' : World σ} {scratch : String}

/-! ### Files that stay -/

/-- A file outside the scratch directories is read as before, if no file was written but in them. -/
theorem AvoidsScratch.read_eq_ok {path : String} (h : AvoidsScratch d.cwd path)
    (hd : d.Evolves s d') (hscratch : ∀ l, s.scratch l → InScratch l)
    (hfiles : ¬ s.files (Path.place d.cwd path)) {content : Content}
    (hread : d.read path = .ok content) : d'.read path = .ok content :=
  hd.read_eq_ok (fun m hm hl => h m hm (hscratch m hl)) hfiles hread

/-- A file in a scratch directory lies in it. -/
theorem IsScratch.inScratch_place_join (h : IsScratch scratch) {name : String}
    (hname : Path.IsName name) (cwd : Location) :
    InScratch (Path.place cwd (Path.join scratch name)) := by
  refine ⟨scratch, h, ?_⟩
  rw [MergeTask.place_join_scratch h hname]
  exact List.prefix_append _ _

/-- A picture in a scratch directory stays as it is while another file is written there. -/
theorem IsScratch.readPicture_eq_ok (h : IsScratch scratch) {name other : String}
    (hname : Path.IsName name) (hother : Path.IsName other) (hne : name ≠ other)
    (hd : d.Evolves (.only (Path.place d.cwd (Path.join scratch other))) d') {p : Picture}
    (hread : Files.readPicture d (Path.join scratch name) = .ok p) :
    Files.readPicture d' (Path.join scratch name) = .ok p := by
  obtain ⟨own, hplace, hplace'⟩ := h.place_eq d.cwd
  have hdiffers : ∀ m, Path.Passes d.cwd (Path.join scratch name) m ∨
      m = Path.place d.cwd (Path.join scratch name) →
        m ≠ Path.place d.cwd (Path.join scratch other) := by
    rw [MergeTask.place_join_scratch h hname, MergeTask.place_join_scratch h hother, hplace']
    rintro m (hm | rfl)
    · rcases (hname.passes_join scratch d.cwd m).mp hm with hm | rfl
      · rcases h.passes hm with rfl | rfl <;> exact nofun
      · rw [hplace]
        exact nofun
    · intro heq
      exact hne (List.cons.inj (List.append_cancel_left heq)).1
  obtain ⟨hextension, content, hcontent, hpicture⟩ := Files.inspectPicture_eq_ok_iff.mp hread
  exact Files.inspectPicture_eq_ok_iff.mpr
    ⟨hextension, content, hd.read_eq_ok hdiffers id hcontent, hpicture⟩

/-! ### Masks -/

namespace MaskInput

variable {input : MaskInput} {source : String} {width height : Nat} {size : Nat × Nat}
  {m : Picture}

/-- A mask is at hand: in memory, or in a file outside the scratch directories. -/
def IsThere (d : Files) : MaskInput → Prop
  | asset _ => True
  | file path => AvoidsScratch d.cwd path ∧ d.isFile path = true

/-- A mask is the same on two disks. -/
def IsSame (d d' : Files) : MaskInput → Prop
  | asset _ => True
  | file path => d'.read path = d.read path

/-- The size of a mask. -/
def size? (d : Files) : MaskInput → Option (Nat × Nat)
  | asset mask => some (mask.picture.width, mask.picture.height)
  | file path => d.size? path

/-- A mask as a picture. -/
def picture? (d : Files) : MaskInput → Option Picture
  | asset mask => some mask.picture
  | file path => (Files.readPicture d path).toOption

/-- A mask stands under a path: a copy of it, or its file. -/
def StandsAt (d : Files) (source : String) (d' : Files) : MaskInput → Prop
  | asset mask => Files.readPicture d' source = .ok mask.picture
  | file path => source = path ∧ d'.read path = d.read path

/-- The mask in a given size as a picture: the mask itself, if it has that size, or else what the tool
makes of it in that size. -/
inductive Fits (tools : Toolchain σ) (d : Files) (input : MaskInput) (width height : Nat)
    (m : Picture) : Prop where
  | own (hpicture : input.picture? d = some m)
  | scaled {size : Nat × Nat} {source target : String} {early ready : World σ}
      (hsize : input.size? d = some size) (hdiffers : size ≠ (width, height))
      (hsource : input.StandsAt d source early.disk)
      (hresize : tools.resize source width height target early = (.ok (), ready))
      (hmask : Files.readPicture ready.disk target = .ok m)

/-- A mask stays while files are written in the scratch directories. -/
theorem IsThere.evolves (h : input.IsThere d) (hd : d.Evolves s d')
    (hscratch : ∀ l, s.scratch l → InScratch l) (hfiles : ∀ l, ¬ s.files l) :
    input.IsThere d' ∧ input.IsSame d d' := by
  cases input with
  | asset mask => exact ⟨trivial, trivial⟩
  | file path =>
      obtain ⟨havoids, hfile⟩ := h
      obtain ⟨content, hfound⟩ := Disk.isFile_iff.mp hfile
      have hread := Disk.read_eq_ok_iff.mpr hfound
      have hread' := havoids.read_eq_ok hd hscratch (hfiles _) hread
      refine ⟨⟨?_, Disk.isFile_iff.mpr ⟨content, Disk.read_eq_ok_iff.mp hread'⟩⟩, ?_⟩
      · rwa [hd.cwd]
      · exact hread'.trans hread.symm

theorem IsSame.trans {d'' : Files} (h : input.IsSame d d') (h' : input.IsSame d' d'') :
    input.IsSame d d'' := by
  cases input with
  | asset mask => trivial
  | file path => exact Eq.trans h' h

theorem IsSame.size?_eq (h : input.IsSame d d') : input.size? d' = input.size? d := by
  cases input with
  | asset mask => rfl
  | file path => exact congrArg Except.toOption (Files.inspectPicture_of_read h)

theorem IsSame.picture?_eq (h : input.IsSame d d') : input.picture? d' = input.picture? d := by
  cases input with
  | asset mask => rfl
  | file path => exact congrArg Except.toOption (Files.inspectPicture_of_read h)

theorem IsSame.standsAt {d'' : Files} (h : input.IsSame d d')
    (hstands : input.StandsAt d' source d'') : input.StandsAt d source d'' := by
  cases input with
  | asset mask => exact hstands
  | file path => exact ⟨hstands.1, hstands.2.trans h⟩

/-- A mask in a given size depends on the mask alone. -/
theorem IsSame.fits (h : input.IsSame d d') (hfits : Fits tools d' input width height m) :
    Fits tools d input width height m := by
  cases hfits with
  | own hpicture => exact .own (h.picture?_eq ▸ hpicture)
  | scaled hsize hdiffers hsource hresize hmask =>
      exact .scaled (h.size?_eq ▸ hsize) hdiffers (h.standsAt hsource) hresize hmask

/-- A mask is as large where it stands. -/
theorem StandsAt.readPictureSize (h : input.StandsAt d source d')
    (hsize : input.size? d = some size) : Files.readPictureSize d' source = .ok size := by
  cases input with
  | asset mask =>
      cases hsize
      exact Files.readPictureSize_of_readPicture h
  | file path =>
      obtain ⟨rfl, hread⟩ := h
      rw [Files.readPictureSize, Files.inspectPicture_of_read hread]
      exact Files.size?_eq_some_iff.mp hsize

/-- A mask is the picture where it stands. -/
theorem StandsAt.picture?_eq (h : input.StandsAt d source d')
    (hm : Files.readPicture d' source = .ok m) : input.picture? d = some m := by
  cases input with
  | asset mask =>
      rw [h] at hm
      cases hm
      rfl
  | file path =>
      obtain ⟨rfl, hread⟩ := h
      rw [Files.readPicture, Files.inspectPicture_of_read hread] at hm
      exact congrArg Except.toOption hm

end MaskInput

/-! ### Calls -/

/-- The calls that joining a base and a mask takes, if their sizes are known: the mask is resized if it
has another size than the base, and then the two have one size. -/
def Sighting.merging : (base mask : Option (Nat × Nat)) → List Sighting
  | some base, some mask =>
    (if mask = base then [] else [.resize (some mask) base]) ++ [.copyAlpha (some base) (some base)]
  | _, _ => []

namespace MergeTask

variable {o : MergeOptions} {t : MergeTask} {input : MaskInput} {source fitted mask : String}
  {width height : Nat} {size : Nat × Nat} {m : Picture}

/-! ### Masks in a scratch directory -/

/-- A mask is put where the tool can read it. -/
theorem of_run_stageMask
    (hrun : (stageMask scratch input).run.run w = (.ok (source, size), w')) :
    w.disk.Evolves (.only (Path.place w.disk.cwd (Path.join scratch "mask.png"))) w'.disk ∧
      input.StandsAt w.disk source w'.disk ∧ input.size? w.disk = some size := by
  cases input with
  | asset mask =>
      obtain ⟨_, middle, hchange, hpure⟩ := Work.exists_of_run_bind hrun
      cases hpure
      have hwrite := Work.of_run_change hchange
      have hextension : Files.hasPictureExtension (Path.join scratch "mask.png") = true :=
        Files.hasPictureExtension_scratch scratch (by decide)
      exact ⟨Disk.evolves_write (Files.write_of_writePicture hwrite) (.inr rfl),
        Files.readPicture_of_writePicture hextension hwrite, rfl⟩
  | file path =>
      obtain ⟨own, middle, hlook, hpure⟩ := Work.exists_of_run_bind hrun
      obtain ⟨hsize, rfl⟩ := Work.of_run_look hlook
      cases hpure
      exact ⟨Disk.Evolves.refl _ _, ⟨rfl, rfl⟩, Files.size?_eq_some_iff.mpr hsize⟩

/-- **A mask that has the size of the picture is taken as it is, and another one is resized.** -/
theorem of_run_fitMask
    (hrun : (fitMask tools width height fitted (source, size)).run.run w = (.ok mask, w')) :
    (mask = source ∧ w' = w ∧ size = (width, height)) ∨
      (mask = fitted ∧ size ≠ (width, height) ∧
        tools.resize source width height fitted w = (.ok (), w')) := by
  unfold fitMask at hrun
  dsimp only at hrun
  split at hrun
  · next hsame =>
      cases hrun
      exact .inl ⟨rfl, rfl, hsame⟩
  · next hdiffers =>
      obtain ⟨_, middle, hresize, hpure⟩ := Work.exists_of_run_bind hrun
      cases hpure
      exact .inr ⟨rfl, hdiffers, hresize⟩

section Fitted

variable (htools : tools.Meets brightness)
  (hrun : (fitMask tools width height fitted (source, size)).run.run w = (.ok mask, w'))

include htools hrun

theorem evolves_of_run_fitMask :
    w.disk.Evolves (.only (Path.place w.disk.cwd fitted)) w'.disk := by
  rcases of_run_fitMask hrun with ⟨-, rfl, -⟩ | ⟨-, -, hresize⟩
  · exact Disk.Evolves.refl _ _
  · have hwrites := htools.resize source width height fitted w
    rwa [hresize] at hwrites

/-- **A mask that was fitted has the size of the picture.** -/
theorem readPictureSize_of_run_fitMask (hextension : Files.hasPictureExtension fitted = true)
    (hsource : Files.readPictureSize w.disk source = .ok size) :
    Files.readPictureSize w'.disk mask = .ok (width, height) := by
  rcases of_run_fitMask hrun with ⟨rfl, rfl, rfl⟩ | ⟨rfl, -, hresize⟩
  · exact hsource
  · obtain ⟨p, hp, rfl, rfl⟩ := htools.composes.resize hextension hresize
    exact Files.readPictureSize_of_readPicture hp

omit htools in
/-- **A mask that was fitted is the mask in the size of the picture.** -/
theorem fits_of_run_fitMask (hsize : input.size? d = some size)
    (hstands : input.StandsAt d source w.disk) (hm : Files.readPicture w'.disk mask = .ok m) :
    MaskInput.Fits tools d input width height m := by
  rcases of_run_fitMask hrun with ⟨rfl, rfl, -⟩ | ⟨rfl, hdiffers, hresize⟩
  · exact .own (hstands.picture?_eq hm)
  · exact .scaled hsize hdiffers hstands hresize hm

end Fitted

/-! ### Calls of a task -/

/-- Putting a mask into place takes no call. -/
theorem sees_stageMask (scratch : String) (input : MaskInput) (w : World σ) :
    (stageMask scratch input : Work (σ × List Sighting) _).Sees (stageMask scratch input) w [] := by
  cases input with
  | asset mask => exact (Work.sees_change _ w).bind_silent fun _ v _ => Work.sees_pure _ v
  | file path => exact (Work.sees_look _ w).bind_silent fun _ v _ => Work.sees_pure _ v

/-- **A mask is resized exactly if it has another size**, and to the size of the picture. -/
theorem sees_fitMask (tools : Toolchain σ) (width height : Nat) (fitted : String)
    (hsource : Files.readPictureSize w.disk source = .ok size) :
    (fitMask tools.watched width height fitted (source, size)).Sees
      (fitMask tools width height fitted (source, size)) w
      (if size = (width, height) then [] else [.resize (some size) (width, height)]) := by
  rw [← Files.size?_eq_some_iff.mpr hsource]
  unfold fitMask
  dsimp only
  split
  · exact Work.sees_pure source w
  · exact (Work.sees_call _ _ w).bind_silent fun _ v _ => Work.sees_pure fitted v

/-- **A base and a mask have one size when they are joined.** -/
theorem sees_copyAlpha (tools : Toolchain σ) {base : String} (target : String)
    (hbase : Files.readPictureSize w.disk base = .ok (width, height))
    (hmask : Files.readPictureSize w.disk mask = .ok (width, height)) :
    (Work.call (tools.watched.copyAlpha base mask target)).Sees
      (Work.call (tools.copyAlpha base mask target)) w
      [.copyAlpha (some (width, height)) (some (width, height))] := by
  have hjoin := Work.sees_call (fun d => [.copyAlpha (d.size? base) (d.size? mask)])
    (tools.copyAlpha base mask target) w
  rwa [Files.size?_eq_some_iff.mpr hbase, Files.size?_eq_some_iff.mpr hmask] at hjoin

/-- The calls that a task makes: none if its output is found, and otherwise those for its mask. -/
def sightings (o : MergeOptions) (t : MergeTask) (d : Files) : List Sighting :=
  if d.exists? (t.target o) && !o.force then []
  else
    Sighting.merging (some (t.color.picture.width, t.color.picture.height))
      (t.mask.bind (·.size? d))

/-- The picture that a task is to produce: its colors as they are, or their composite with its
mask. -/
def Yields (tools : Toolchain σ) (brightness : Pixel → UInt8) (d : Files) (t : MergeTask)
    (p : Picture) : Prop :=
  match t.mask with
  | none => p = t.color.picture
  | some input => ∃ m, input.Fits tools d t.color.picture.width t.color.picture.height m ∧
      Picture.IsComposite brightness t.color.picture m p

/-- What a task is to produce depends on its mask alone. -/
theorem Yields.congr {p : Picture} (hyields : t.Yields tools brightness d' p)
    (hsame : ∀ input ∈ t.mask, input.IsSame d d') : t.Yields tools brightness d p := by
  unfold Yields at hyields ⊢
  match hmask : t.mask with
  | none =>
      rw [hmask] at hyields
      exact hyields
  | some input =>
      rw [hmask] at hyields
      obtain ⟨m, hfits, hcomposite⟩ := hyields
      exact ⟨m, (hsame input hmask).fits hfits, hcomposite⟩

section Staged

variable (h : IsScratch scratch)

include h

/-- The picture and the mask of a task are put where the tool can read them. -/
theorem staged_of_run {v v' : World σ} (hthere : input.IsThere w.disk)
    (hcolor : (Work.change fun d =>
      Files.writePicture d (Path.join scratch "color.png") t.color.picture).run.run w = (.ok (), v))
    (hmask : (stageMask scratch input).run.run v = (.ok (source, size), v')) :
    Files.readPicture v'.disk (Path.join scratch "color.png") = .ok t.color.picture ∧
      input.StandsAt w.disk source v'.disk ∧ input.size? w.disk = some size := by
  have hwrite := Work.of_run_change hcolor
  have hread : Files.readPicture v.disk (Path.join scratch "color.png") = .ok t.color.picture :=
    Files.readPicture_of_writePicture
      (Files.hasPictureExtension_scratch scratch (by decide)) hwrite
  have hwritten : w.disk.Evolves
      (.only (Path.place w.disk.cwd (Path.join scratch "color.png"))) v.disk :=
    Disk.evolves_write (Files.write_of_writePicture hwrite) (.inr rfl)
  have hsame : input.IsSame w.disk v.disk := by
    refine (hthere.evolves hwritten ?_ fun _ => id).2
    rintro l rfl
    exact h.inScratch_place_join (by decide) _
  obtain ⟨hstaged, hstands, hsize⟩ := of_run_stageMask hmask
  exact ⟨h.readPicture_eq_ok (by decide) (by decide) (by decide) hstaged hread,
    hsame.standsAt hstands, hsame.size?_eq ▸ hsize⟩

variable (htools : tools.Meets brightness) (hthere : ∀ input ∈ t.mask, input.IsThere w.disk)

include htools hthere

/-- **The calls of a task for its mask.** -/
theorem sees_stage (target : String) :
    (stage tools.watched scratch target t).Sees (stage tools scratch target t) w
      (Sighting.merging (some (t.color.picture.width, t.color.picture.height))
        (t.mask.bind (·.size? w.disk))) := by
  unfold stage
  match hmask : t.mask with
  | none => exact Work.sees_change _ w
  | some input =>
      refine (Work.sees_change _ w).bind fun _ v hcolor => ?_
      refine (sees_stageMask scratch input v).bind fun ⟨source, size⟩ v' hstage => ?_
      obtain ⟨hread, hstands, hsize⟩ := staged_of_run h (hthere input hmask) hcolor hstage
      have hsource := hstands.readPictureSize hsize
      rw [Option.bind_some, hsize]
      refine (sees_fitMask tools _ _ _ hsource).bind fun fitted ready hfit => ?_
      have hbase := h.readPicture_eq_ok (by decide) (by decide) (by decide)
        (evolves_of_run_fitMask htools hfit) hread
      exact sees_copyAlpha tools target (Files.readPictureSize_of_readPicture hbase)
        (readPictureSize_of_run_fitMask htools hfit
          (Files.hasPictureExtension_scratch scratch (by decide)) hsource)

/-- **A task stages the picture that it is to produce.** -/
theorem exists_of_run_stage
    (hrun : (stage tools scratch (Path.join scratch "out.png") t).run.run w = (.ok (), w')) :
    ∃ p, Files.readPicture w'.disk (Path.join scratch "out.png") = .ok p ∧
      t.Yields tools brightness w.disk p := by
  have hextension : Files.hasPictureExtension (Path.join scratch "out.png") = true :=
    Files.hasPictureExtension_scratch scratch (by decide)
  unfold stage at hrun
  unfold Yields
  match hmask : t.mask with
  | none =>
      rw [hmask] at hrun
      exact ⟨_, Files.readPicture_of_writePicture hextension (Work.of_run_change hrun), rfl⟩
  | some input =>
      rw [hmask] at hrun
      obtain ⟨_, v, hcolor, hrun⟩ := Work.exists_of_run_bind hrun
      obtain ⟨⟨source, size⟩, v', hstage, hrun⟩ := Work.exists_of_run_bind hrun
      obtain ⟨mask, ready, hfit, hjoin⟩ := Work.exists_of_run_bind hrun
      obtain ⟨hread, hstands, hsize⟩ := staged_of_run h (hthere input hmask) hcolor hstage
      have hbase := h.readPicture_eq_ok (by decide) (by decide) (by decide)
        (evolves_of_run_fitMask htools hfit) hread
      have hmaskSize := readPictureSize_of_run_fitMask htools hfit
        (Files.hasPictureExtension_scratch scratch (by decide))
        (hstands.readPictureSize hsize)
      obtain ⟨m, p, hm, hp, hcomposite⟩ := htools.isComposite hextension hjoin hbase hmaskSize
      exact ⟨p, hp, m, fits_of_run_fitMask hfit hsize hstands hm, hcomposite⟩

theorem sees_publish (o : MergeOptions) :
    (t.publish tools.watched o scratch).Sees (t.publish tools o scratch) w
      (Sighting.merging (some (t.color.picture.width, t.color.picture.height))
        (t.mask.bind (·.size? w.disk))) := by
  have hend : ∀ v : World σ, (Work.change (fun d =>
      Files.copy d (Path.join scratch "out.png") (t.target o)) >>= fun _ =>
        pure TaskStatus.written : Work (σ × List Sighting) TaskStatus).Sees
      (Work.change (fun d =>
        Files.copy d (Path.join scratch "out.png") (t.target o)) >>= fun _ =>
          pure TaskStatus.written) v [] :=
    fun v => (Work.sees_change _ v).bind_silent fun _ v' _ => Work.sees_pure _ v'
  unfold publish
  refine (sees_stage h htools hthere _).bind_silent fun _ v _ => ?_
  show Work.Sees (if o.quantize && tools.canQuantize then _ else _) _ v []
  split
  · exact (Work.sees_call (fun _ => []) _ v).bind_silent fun _ v' _ => hend v'
  · exact hend v

/-- **What a task publishes without quantizing it is the picture that it is to produce.** -/
theorem yields_of_publish {status : TaskStatus}
    (hplain : (o.quantize && tools.canQuantize) = false)
    (hrun : (t.publish tools o scratch).run.run w = (.ok status, w')) :
    ∃ content p, w'.disk.read (t.target o) = .ok content ∧ content.picture? = some p ∧
      t.Yields tools brightness w.disk p := by
  unfold publish at hrun
  rw [hplain] at hrun
  obtain ⟨_, staged, hstage, hrun⟩ := Work.exists_of_run_bind hrun
  obtain ⟨_, middle, hcopy, hpure⟩ := Work.exists_of_run_bind hrun
  cases hpure
  obtain ⟨p, hp, hyields⟩ := exists_of_run_stage h htools hthere hstage
  obtain ⟨-, content, hread, hpicture⟩ := Files.inspectPicture_eq_ok_iff.mp hp
  obtain ⟨content', hread', hwrite⟩ :=
    Disk.exists_write_of_copy (Files.copy_eq_ok_iff.mp (Work.of_run_change hcopy))
  rw [hread] at hread'
  cases hread'
  exact ⟨content, p, Disk.read_eq_ok_iff.mpr (Disk.find?_of_write hwrite), hpicture, hyields⟩

end Staged

/-! ### Whole tasks -/

/-- A mask stays while directories are made for an output, and a scratch directory. -/
theorem isThere_of_made (h : IsScratch scratch) (hthere : input.IsThere d) {path : String}
    {d'' : Files} (hdirs : Files.makeDirs d ((Path.parent path).getD "") = .ok d')
    (hscratch : d'.Evolves (producingIn scratch d'.cwd fun _ => False) d'') :
    input.IsThere d'' ∧ input.IsSame d d'' := by
  obtain ⟨hthere', hsame⟩ := hthere.evolves (evolves_making_of_makeDirs hdirs)
    (fun _ hl => absurd hl id) fun _ => id
  obtain ⟨hthere'', hsame'⟩ :=
    hthere'.evolves hscratch (fun _ hl => ⟨scratch, h, hl⟩) fun _ ⟨_, hnone, _⟩ => hnone
  exact ⟨hthere'', hsame.trans hsame'⟩

section Job

variable (h : IsScratch scratch) (htools : tools.Meets brightness)
  (hthere : ∀ input ∈ t.mask, input.IsThere w.disk)

include h htools hthere

/-- **The calls of a task.** -/
theorem sees_job (o : MergeOptions) :
    (t.job tools.watched o scratch).Sees (t.job tools o scratch) w (t.sightings o w.disk) := by
  unfold job
  rw [← List.nil_append (t.sightings o w.disk)]
  refine (Work.sees_look _ w).bind fun present v hlook => ?_
  obtain ⟨hpresent, rfl⟩ := Work.of_run_look hlook
  cases hpresent
  unfold sightings
  split
  · exact Work.sees_pure _ w
  · refine (Work.sees_change _ w).bind fun _ v hdirs => ?_
    have hdirs' := Work.of_run_change hdirs
    refine Work.Sees.withScratch fun e he => ?_
    have hmade : ∀ input ∈ t.mask, input.IsThere e ∧ input.IsSame w.disk e :=
      fun input hinput => isThere_of_made h (hthere input hinput) hdirs' (h.evolves_makeDirs he _)
    have hsame : t.mask.bind (·.size? e) = t.mask.bind (·.size? w.disk) :=
      Option.bind_congr fun input hinput => (hmade input hinput).2.size?_eq
    rw [← hsame]
    exact sees_publish h htools (fun input hinput => (hmade input hinput).1) o

/-- **The output that a task has written without quantizing it is the picture that it is to
produce.** -/
theorem yields_of_job (hlacks : w.disk.Lacks InScratch)
    (havoids : AvoidsScratch w.disk.cwd (t.target o))
    (hplain : (o.quantize && tools.canQuantize) = false)
    (hrun : (t.job tools o scratch).run.run w = (.ok .written, w')) :
    ∃ content p, w'.disk.read (t.target o) = .ok content ∧ content.picture? = some p ∧
      t.Yields tools brightness w.disk p := by
  rcases job_steps hlacks havoids hrun with
    ⟨-, hcached⟩ | ⟨d, hdirs, hmade, hlacks', havoids', hrun'⟩
  · cases (hcached .written rfl).1
  · have havoided : ∀ path, path = t.target o → AvoidsScratch d.cwd path := by
      rintro path rfl
      exact havoids'
    rcases Work.withScratch_steps h hlacks' havoided hrun' with
      ⟨-, e, he⟩ | ⟨e, middle, hscratch, hpublish, hrest⟩
    · cases he
    · have hkept : ∀ input ∈ t.mask, input.IsThere e ∧ input.IsSame w.disk e :=
        fun input hinput => isThere_of_made h (hthere input hinput) hdirs hscratch
      obtain ⟨content, p, hread, hpicture, hyields⟩ := yields_of_publish h htools
        (fun input hinput => (hkept input hinput).1) hplain hpublish
      have hevolves : (t.publish tools o scratch).Evolves d.cwd
          (producingIn scratch d.cwd (· = t.target o)) :=
        evolves_publish htools.tidy h (fun l hl => hl) ⟨_, rfl, rfl⟩
      have hmiddle := hevolves { w with disk := e } hscratch.cwd
      rw [hpublish] at hmiddle
      refine ⟨content, p, ?_, hpicture, hyields.congr fun input hinput => (hkept input hinput).2⟩
      -- the scratch directory is taken away, and the output lies elsewhere
      refine AvoidsScratch.read_eq_ok ?_ (hrest hmiddle).1 (fun l hl => ⟨scratch, h, hl⟩) id hread
      rwa [hmiddle.cwd, hscratch.cwd]

end Job

end MergeTask

end CharacterArt
