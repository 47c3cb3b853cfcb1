import CharacterArt.Proofs.Merge.Composition
import CharacterArt.Proofs.Reconciliation.Opacity

/-!
# Outputs and donors of one size

A merge in place takes its mask from the file of a donor, and has it resized like the mask of a task.
So whoever asks the tool, it is asked to join a picture and a mask of one size, and what stands in the
output is their composite.

## Main Results

* `Reconciliation.sees_mergeInPlace` — the calls of a merge in place
* `Reconciliation.isComposite_of_mergeInPlace` — the output of a merge in place
* `Toolchain.Meets.composites` — the calls and the outputs of tasks and of merges in place
-/

namespace CharacterArt

namespace Reconciliation

variable {σ : Type} {tools : Toolchain σ} {brightness : Pixel → UInt8} {target donor : String}
  {w w' : World σ}

/-! ### Merges in place -/

section Merge

variable (htools : tools.Meets brightness)

include htools

/-- **The calls of a merge, when its scratch directory is there.** -/
theorem sees_mergeWork (htarget : Lies w.disk target) :
    (mergeWork tools.watched target donor).Sees (mergeWork tools target donor) w
      (Sighting.merging (w.disk.size? target) (w.disk.size? donor)) := by
  unfold mergeWork
  refine (Work.sees_look _ w).bind fun ⟨width, height⟩ v hlook => ?_
  obtain ⟨hsize, rfl⟩ := Work.of_run_look hlook
  refine (Work.sees_look _ w).bind fun own v hlook => ?_
  obtain ⟨hown, rfl⟩ := Work.of_run_look hlook
  rw [Files.size?_eq_some_iff.mpr hsize, Files.size?_eq_some_iff.mpr hown]
  refine (MergeTask.sees_fitMask tools width height resized hown).bind fun mask ready hfit => ?_
  have hready := MergeTask.evolves_of_run_fitMask htools hfit
  have hkept : ready.disk.read target = w.disk.read target := by
    refine (htarget.evolves hready ?_ id).2
    rintro l rfl
    exact IsScratch.mend.inScratch_place_join (by decide) _
  have hbase : Files.readPictureSize ready.disk target = .ok (width, height) :=
    (Files.inspectPicture_of_read hkept).trans hsize
  have hmask := MergeTask.readPictureSize_of_run_fitMask htools hfit hasPictureExtension_resized hown
  exact (MergeTask.sees_copyAlpha tools joined hbase hmask).bind_silent fun _ v _ =>
    Work.sees_change _ v

/-- **The calls of a merge in place.** -/
theorem sees_mergeInPlace (htarget : Lies w.disk target) (hdonor : Lies w.disk donor) :
    (mergeInPlace tools.watched scratch target donor).Sees
      (mergeInPlace tools scratch target donor) w
      (Sighting.merging (w.disk.size? target) (w.disk.size? donor)) := by
  rw [mergeInPlace_eq, mergeInPlace_eq]
  refine Work.Sees.withScratch fun d hd => ?_
  have hmade := IsScratch.mend.evolves_makeDirs hd fun _ => False
  have hlies : ∀ {path}, Lies w.disk path → Lies d path ∧ d.size? path = w.disk.size? path := by
    intro path hpath
    have hevolves := hpath.evolves hmade (fun _ hl => ⟨scratch, .mend, hl⟩)
      fun ⟨_, hnone, _⟩ => hnone
    exact hevolves.imp_right fun hread =>
      congrArg Except.toOption (Files.inspectPicture_of_read hread)
  rw [← (hlies htarget).2, ← (hlies hdonor).2]
  exact sees_mergeWork htools (hlies htarget).1

/-- **An output that was merged is the composite of what it was and its donor.** -/
theorem isComposite_of_mergeInPlace (hlacks : w.disk.Lacks InScratch)
    (htarget : Lies w.disk target) (hdonor : Lies w.disk donor)
    (hrun : (mergeInPlace tools scratch target donor).run.run w = (.ok (), w')) :
    ∃ b m p, Files.readPicture w.disk target = .ok b ∧ Files.readPicture w'.disk target = .ok p ∧
      (MaskInput.file donor).Fits tools w.disk b.width b.height m ∧
      Picture.IsComposite brightness b m p := by
  have htakes := (mergeInPlace_cases htools.tidy hlacks htarget hdonor hrun).1 rfl
  obtain ⟨mask, ready, done, b, hjoin, hb, hbase, hsize, hfitted, hresult⟩ :=
    htakes.exists_join htools.composes
  obtain ⟨m, p, hm, hp, hcomposite⟩ := htools.isComposite hasPictureExtension_joined hjoin hb hsize
  refine ⟨b, m, p, hbase, hresult p hp, ?_, hcomposite⟩
  cases hfitted m hm with
  | own hread => exact .own (congrArg Except.toOption hread)
  | scaled hown hdiffers hread hresize hmask =>
      exact .scaled (Files.size?_eq_some_iff.mpr hown) hdiffers ⟨rfl, hread⟩ hresize hmask

end Merge

end Reconciliation

open Reconciliation in
/-- **The tool joins pictures and masks of one size, and their composites are left.**

A task whose output is found calls no tool, and neither does one without a mask.  Otherwise the tool is
asked to resize the mask exactly if it has another size than the picture, to the size of the picture,
and then to join the two; if the task fails it may have made fewer of these calls.  What it has written
without quantizing is its colors as they are, or their composite with the mask in that size.  The same
holds of merges in place, where the picture is what stood in the output. -/
theorem Toolchain.Meets.composites {σ : Type} {tools : Toolchain σ} {brightness : Pixel → UInt8}
    {w : World σ} (h : tools.Meets brightness) (hlacks : w.disk.Lacks InScratch) :
    (∀ (o : MergeOptions) (t : MergeTask) (number : Nat), AvoidsScratch w.disk.cwd (t.target o) →
      (∀ input ∈ t.mask, input.IsThere w.disk) →
      ∃ status w' seen, MergePool.runTask tools o number t w = (status, w') ∧
        MergePool.runTask tools.watched o number t (w.watched []) = (status, w'.watched seen) ∧
        seen <+: t.sightings o w.disk ∧
        (status = some .written → seen = t.sightings o w.disk ∧
          ((o.quantize && tools.canQuantize) = false →
            ∃ content p, w'.disk.read (t.target o) = .ok content ∧ content.picture? = some p ∧
              t.Yields tools brightness w.disk p))) ∧
    ∀ target donor, Lies w.disk target → Lies w.disk donor →
      ∃ result w' seen, (mergeInPlace tools scratch target donor).run.run w = (result, w') ∧
        (mergeInPlace tools.watched scratch target donor).run.run (w.watched []) =
          (result, w'.watched seen) ∧
        seen <+: Sighting.merging (w.disk.size? target) (w.disk.size? donor) ∧
        (result = .ok () →
          seen = Sighting.merging (w.disk.size? target) (w.disk.size? donor) ∧
          ∃ b m p, Files.readPicture w.disk target = .ok b ∧
            Files.readPicture w'.disk target = .ok p ∧
            (MaskInput.file donor).Fits tools w.disk b.width b.height m ∧
            Picture.IsComposite brightness b m p) := by
  constructor
  · intro o t number havoids hthere
    obtain ⟨seen, hprefix, hall, hwatched⟩ :=
      MergeTask.sees_job (.merge number) h hthere o
    rcases hjob : (t.job tools o (MergePool.scratchOf number)).run.run w with ⟨result, w'⟩
    rw [hjob] at hall hwatched
    refine ⟨TaskStatus.ofWork? result, w', seen, ?_, ?_, hprefix, fun hstatus => ?_⟩
    · rw [MergePool.runTask, hjob]
    · rw [MergePool.runTask, hwatched []]
      rfl
    · obtain rfl := MergePool.eq_ok_of_ofWork? hstatus rfl
      exact ⟨hall .written rfl, fun hplain =>
        MergeTask.yields_of_job (.merge number) h hthere hlacks havoids hplain hjob⟩
  · intro target donor htarget hdonor
    obtain ⟨seen, hprefix, hall, hwatched⟩ := sees_mergeInPlace h htarget hdonor
    rcases hmerge : (mergeInPlace tools scratch target donor).run.run w with ⟨result, w'⟩
    rw [hmerge] at hall hwatched
    refine ⟨result, w', seen, rfl, hwatched [], hprefix, ?_⟩
    rintro rfl
    exact ⟨hall () rfl, isComposite_of_mergeInPlace h hlacks htarget hdonor hmerge⟩

/-! ### A mask that is resized

An opaque picture of one pixel gets the alpha of a file that is larger, once as a new output and once
where it stands. -/

namespace Reconciliation.Sample

def plain : MergeOptions := ⟨"/out", false, false⟩

def speck : Asset := ⟨1, "hero", .texture, "art", "", .ofPixel ⟨31, 47, 63, 255⟩⟩

/-- The mask of this task is an output of the chain. -/
def veiled : MergeTask := ⟨"z", "hero", speck, some (.file "/out/y/pic.png"), ["A/0"]⟩

/-- The calls for a mask that is resized to one pixel. -/
def shrinking : List Sighting :=
  [.resize (some (2, 2)) (1, 1), .copyAlpha (some (1, 1)) (some (1, 1))]

/-- All that is asked of the two, in one evaluation. -/
theorem evaluated_veiled :
    (MergePool.runTask Toolchain.inProcess plain 0 veiled chain).1 = some .written ∧
    ((mergeInPlace Toolchain.inProcess scratch "/out/x/pic_1.png" "/out/y/pic.png").run.run
      chain).1.toOption.isSome = true ∧
    veiled.sightings plain chain.disk = shrinking ∧
    Sighting.merging (chain.disk.size? "/out/x/pic_1.png") (chain.disk.size? "/out/y/pic.png") =
      shrinking ∧
    (chain.disk.isFile "/out/x/pic_1.png" = true ∧ chain.disk.isFile "/out/y/pic.png" = true) ∧
    ∀ path ∈ ["/out/z/hero.png", "/out/x/pic_1.png", "/out/y/pic.png"],
      ∀ m ∈ Path.way (Path.start [] path) (Path.segments path.toList) ++ [Path.place [] path],
        m.head? ≠ some "tmp" := by
  decide +kernel

theorem avoids_chain {path : String}
    (h : path ∈ ["/out/z/hero.png", "/out/x/pic_1.png", "/out/y/pic.png"]) :
    AvoidsScratch chain.disk.cwd path := by
  obtain ⟨-, -, -, -, -, haway⟩ := evaluated_veiled
  exact avoidsScratch_of_forall (haway path h)

/-- The tool is watched while a file is made the mask of a new picture, and of one that is there. -/
theorem composites_chain : (Toolchain.inProcess : Toolchain Unit).Meets Pixel.luminance ∧
    chain.disk.Lacks InScratch ∧ AvoidsScratch chain.disk.cwd (veiled.target plain) ∧
    (∀ input ∈ veiled.mask, input.IsThere chain.disk) ∧ Lies chain.disk "/out/x/pic_1.png" ∧
    Lies chain.disk "/out/y/pic.png" ∧
    (∃ w' : World Unit,
      MergePool.runTask Toolchain.inProcess.watched plain 0 veiled (chain.watched []) =
        (some .written, w'.watched shrinking) ∧
      ∃ content p, w'.disk.read (veiled.target plain) = .ok content ∧ content.picture? = some p ∧
        veiled.Yields (Toolchain.inProcess : Toolchain Unit) Pixel.luminance chain.disk p) ∧
    ∃ w' : World Unit, (mergeInPlace Toolchain.inProcess.watched scratch "/out/x/pic_1.png"
        "/out/y/pic.png").run.run (chain.watched []) = (.ok (), w'.watched shrinking) ∧
      ∃ b m p, Files.readPicture chain.disk "/out/x/pic_1.png" = .ok b ∧
        Files.readPicture w'.disk "/out/x/pic_1.png" = .ok p ∧
        (MaskInput.file "/out/y/pic.png").Fits (Toolchain.inProcess : Toolchain Unit) chain.disk
          b.width b.height m ∧ Picture.IsComposite Pixel.luminance b m p := by
  obtain ⟨hwritten, hmerged, hsightings, hmerging, hfiles, -⟩ := evaluated_veiled
  have htarget := lies_of_isFile (avoids_chain (by decide)) hfiles.1
  have hdonor := lies_of_isFile (avoids_chain (by decide)) hfiles.2
  have havoids : AvoidsScratch chain.disk.cwd (veiled.target plain) := avoids_chain (by decide)
  have hthere : ∀ input ∈ veiled.mask, input.IsThere chain.disk := by
    rintro input hinput
    cases hinput
    exact ⟨hdonor.avoids, hfiles.2⟩
  obtain ⟨htasks, hmerges⟩ := (Toolchain.meets_inProcess Unit).composites lacks_chain
  refine ⟨Toolchain.meets_inProcess Unit, lacks_chain, havoids, hthere, htarget, hdonor, ?_, ?_⟩
  · obtain ⟨status, w', seen, hrun, hwatched, -, hall⟩ := htasks plain veiled 0 havoids hthere
    rw [hrun] at hwritten
    obtain rfl := hwritten
    obtain ⟨rfl, hyields⟩ := hall rfl
    rw [hsightings] at hwatched
    exact ⟨w', hwatched, hyields rfl⟩
  · obtain ⟨result, w', seen, hrun, hwatched, -, hall⟩ := hmerges _ _ htarget hdonor
    rw [hrun] at hmerged
    cases result with
    | error stop => cases hmerged
    | ok ended =>
        obtain ⟨rfl, hcomposite⟩ := hall rfl
        rw [hmerging] at hwatched
        exact ⟨w', hwatched, hcomposite⟩

def quantizing : MergeOptions := ⟨"/out", false, true⟩

def bare : MergeTask := ⟨"z", "hero", speck, none, ["A/0"]⟩

/-- An output without a mask is not its colors as they were if it is quantized. -/
theorem exists_quantized : (Toolchain.inProcess : Toolchain Unit).Meets Pixel.luminance ∧
    chain.disk.Lacks InScratch ∧ AvoidsScratch chain.disk.cwd (bare.target quantizing) ∧
    bare.mask = none ∧ ∃ (w' : World Unit) (p : Picture),
      MergePool.runTask Toolchain.inProcess quantizing 0 bare chain = (some .written, w') ∧
      Files.readPicture w'.disk (bare.target quantizing) = .ok p ∧ p ≠ bare.color.picture := by
  have hevaluated :
      (MergePool.runTask Toolchain.inProcess quantizing 0 bare chain).1 = some .written ∧
      (Files.readPicture (MergePool.runTask Toolchain.inProcess quantizing 0 bare chain).2.disk
        (bare.target quantizing)).toOption.any (· != bare.color.picture) = true := by
    decide +kernel
  obtain ⟨p, hread, hdiffers⟩ := exists_eq_ok_of_any hevaluated.2
  exact ⟨Toolchain.meets_inProcess Unit, lacks_chain, avoids_chain (by decide), rfl, _, p,
    Prod.ext hevaluated.1 rfl, hread, bne_iff_ne.mp hdiffers⟩

end Reconciliation.Sample

end CharacterArt
