import CharacterArt.Proofs.Merge.Masks
import CharacterArt.Proofs.Reconciliation.Outcomes

/-!
# Opaque donors

A mended output counts as not opaque without being asked again.  If its mask was resized on the way,
all that was transparent in it may be gone, and then the output is opaque and serves as a donor all the
same.  This is the only way in which an opaque donor is found.

## Main Definitions

* `IsFitted`, `Veils` — the mask of a merge as a picture, and what it makes of an output
* `MendedWith` — an output that was mended earlier in a pass, and its mask

## Main Results

* `Takes.exists_join` — a merge joins an output with a mask that is fitted to it
* `Takes.exists_veils` — a merge gives an output the alpha of that mask
* `Finds.read_or_mended` — an output is as in the beginning, or it was mended
* `Finds.judges_or_mended` — the tool says that a donor is not opaque, or it was mended
* `donor_opaque_iff` — when a donor is opaque
* `exists_opaque_donor` — an opaque donor
-/

namespace CharacterArt

namespace Reconciliation

variable {σ : Type} {tools : Toolchain σ} {brightness : Pixel → UInt8} {outputs : List OutputFile}
  {o target donor : OutputFile} {s : State σ} {w w' : World σ} {before : List String}
  {m : Picture}

/-! ### Merges of pictures -/

/-- The mask of a merge as a picture: the donor itself if it has the size that is needed, or else what
the tool made of it in that size. -/
inductive IsFitted (tools : Toolchain σ) (donor : String) (w : World σ) (width height : Nat)
    (m : Picture) : Prop where
  | own (hread : Files.readPicture w.disk donor = .ok m)
  | scaled {own : Nat × Nat} {early ready : World σ}
      (hsize : Files.readPictureSize w.disk donor = .ok own) (hdiffers : own ≠ (width, height))
      (hread : early.disk.read donor = w.disk.read donor)
      (hresize : tools.resize donor width height resized early = (.ok (), ready))
      (hmask : Files.readPicture ready.disk resized = .ok m)

/-- An output of some size has the alpha of a mask that was fitted to it, and has kept its size. -/
inductive Veils (tools : Toolchain σ) (brightness : Pixel → UInt8) (target donor : String)
    (w w' : World σ) (m : Picture) : Prop where
  | intro {b p : Picture} (hbase : Files.readPicture w.disk target = .ok b)
      (hresult : Files.readPicture w'.disk target = .ok p)
      (hfitted : IsFitted tools donor w b.width b.height m)
      (hkeeps : p.width = b.width ∧ p.height = b.height)
      (hfits : m.width = p.width ∧ m.height = p.height) (halpha : p.HasAlphaOf brightness m)

theorem hasPictureExtension_resized : Files.hasPictureExtension resized = true :=
  Files.hasPictureExtension_scratch scratch (by decide)

theorem hasPictureExtension_joined : Files.hasPictureExtension joined = true :=
  Files.hasPictureExtension_scratch scratch (by decide)

/-- **A merge joins an output with a mask of its size**, and what comes of it is read from the
output. -/
theorem Takes.exists_join {target donor : String} (hcomposes : tools.Composes brightness)
    (h : Takes tools target donor w w') :
    ∃ (mask : String) (ready done : World σ) (b : Picture),
      tools.copyAlpha target mask joined ready = (.ok (), done) ∧
      Files.readPicture ready.disk target = .ok b ∧ Files.readPicture w.disk target = .ok b ∧
      Files.readPictureSize ready.disk mask = .ok (b.width, b.height) ∧
      (∀ m, Files.readPicture ready.disk mask = .ok m →
        IsFitted tools donor w b.width b.height m) ∧
      ∀ p, Files.readPicture done.disk joined = .ok p → Files.readPicture w'.disk target = .ok p := by
  cases h with
  | @intro width height mask ready done content hsize hmask htarget hdonor hjoin hresult hread =>
      obtain ⟨b, m, p, hb, hm, hp, -⟩ := hcomposes.copyAlpha hasPictureExtension_joined hjoin
      have hextension := (Files.inspectPicture_eq_ok_iff.mp hb).1
      have hbase : Files.readPicture w.disk target = .ok b :=
        (Files.inspectPicture_of_read htarget).symm.trans hb
      have hfitted : Files.readPictureSize ready.disk mask = .ok (width, height) ∧
          ∀ m, Files.readPicture ready.disk mask = .ok m →
            IsFitted tools donor w width height m := by
        cases hmask with
        | donor hsize' =>
            exact ⟨(Files.inspectPicture_of_read hdonor).trans hsize',
              fun m hm => .own ((Files.inspectPicture_of_read hdonor).symm.trans hm)⟩
        | resized hsize' hdiffers hearly hresize =>
            obtain ⟨q, hq, rfl, rfl⟩ := hcomposes.resize hasPictureExtension_resized hresize
            exact ⟨Files.readPictureSize_of_readPicture hq,
              fun m hm => .scaled hsize' hdiffers hearly hresize hm⟩
      have hbsize := Files.readPictureSize_of_readPicture hbase
      rw [hsize] at hbsize
      obtain ⟨rfl, rfl⟩ := Prod.mk.inj (Except.ok.inj hbsize)
      refine ⟨mask, ready, done, b, hjoin, hb, hbase, hfitted.1, hfitted.2, fun p hp => ?_⟩
      obtain ⟨-, content', hcontent, hp⟩ := Files.inspectPicture_eq_ok_iff.mp hp
      rw [hresult] at hcontent
      cases hcontent
      exact Files.inspectPicture_eq_ok_iff.mpr ⟨hextension, content, hread, hp⟩

/-- **A merge gives an output the alpha of a mask that is fitted to it.** -/
theorem Takes.exists_veils {target donor : String} (hcomposes : tools.Composes brightness)
    (h : Takes tools target donor w w') : ∃ m, Veils tools brightness target donor w w' m := by
  obtain ⟨mask, ready, done, b, hjoin, hb, hbase, hsize, hfitted, hresult⟩ :=
    h.exists_join hcomposes
  obtain ⟨b', m, p, hb', hm, hp, hwidth, hheight, halpha⟩ :=
    hcomposes.copyAlpha hasPictureExtension_joined hjoin
  rw [hb] at hb'
  cases hb'
  have hmsize := Files.readPictureSize_of_readPicture hm
  rw [hsize] at hmsize
  obtain ⟨hmwidth, hmheight⟩ := Prod.mk.inj (Except.ok.inj hmsize)
  exact ⟨m, .intro hbase (hresult p hp) (hfitted m hm) ⟨hwidth, hheight⟩
    ⟨hmwidth.symm.trans hwidth.symm, hmheight.symm.trans hheight.symm⟩
    (halpha hmwidth.symm hmheight.symm)⟩

/-- **An output that was merged is opaque exactly if nothing shows through its mask.** -/
theorem Veils.isOpaque_iff {target donor : String} (h : Veils tools brightness target donor w w' m)
    {p : Picture} (hp : Files.readPicture w'.disk target = .ok p) :
    p.isOpaque = true ↔ m.IsBlank brightness := by
  cases h with
  | intro hbase hresult hfitted hkeeps hfits halpha =>
      rw [hp] at hresult
      cases hresult
      exact halpha.isOpaque_iff hfits.1 hfits.2

/-- A merge keeps the size of an output. -/
theorem Veils.size_eq {target donor : String} (h : Veils tools brightness target donor w w' m) :
    Files.readPictureSize w'.disk target = Files.readPictureSize w.disk target := by
  cases h with
  | intro hbase hresult hfitted hkeeps hfits halpha =>
      rw [Files.readPictureSize_of_readPicture hbase, Files.readPictureSize_of_readPicture hresult,
        hkeeps.1, hkeeps.2]

/-! ### Outputs in a pass -/

/-- An output was mended in a pass, and its mask was a certain picture. -/
inductive MendedWith (tools : Toolchain σ) (brightness : Pixel → UInt8) (outputs : List OutputFile)
    (w : World σ) (before : List String) (o : OutputFile) (s : State σ) (m : Picture) : Prop where
  | intro {front after : List String} {other : OutputFile} {early : State σ}
      (hsplit : before = front ++ o.relative :: after)
      (hfinds : Finds tools outputs w front o other early)
      (hveils : Veils tools brightness o.path other.path early.world s.world m)

/-- A donor is a variant of the output. -/
theorem Finds.mem (htidy : tools.Tidy) (h : Finds tools outputs w before target donor s) :
    donor ∈ outputs ∧ donor.relative ≠ target.relative ∧ donor.key = target.key := by
  obtain ⟨start, -, hfind⟩ := h
  exact mem_candidates.mp ((learns_firstDonor htidy (fun _ => id) hfind).2.2 donor rfl).1

section Pass

variable (htidy : tools.Tidy) (hcomposes : tools.Composes brightness)
  (hstanding : Standing outputs w.disk) (hlacks : w.disk.Lacks InScratch)

include htidy hcomposes hstanding hlacks

/-- An output that a pass mended has had a mask ever since. -/
theorem exists_mendedWith {start : State σ} {attempts : List (String × Attempt)}
    (hrun : (tryAll tools outputs before).run.run ⟨w, ∅⟩ = (.ok attempts, start))
    (hdisk : s.world.disk = start.world.disk) (ho : o ∈ outputs)
    (hmended : o.relative ∈ mendedIn attempts) :
    ∃ m, MendedWith tools brightness outputs w before o s m := by
  obtain ⟨front, after, other, early, hsplit, hfinds, htakes⟩ :=
    exists_mend_of_tryAll htidy hstanding hlacks hrun ho hmended
  have hread : s.world.disk.read o.path = start.world.disk.read o.path := by rw [hdisk]
  obtain ⟨m, hveils⟩ := (htakes.congr rfl rfl hread).exists_veils hcomposes
  exact ⟨m, .intro hsplit hfinds hveils⟩

/-- **When a donor is found every output is as in the beginning, or it was mended before.** -/
theorem Finds.read_or_mended (hfinds : Finds tools outputs w before target donor s)
    (ho : o ∈ outputs) :
    s.world.disk.read o.path = w.disk.read o.path ∨
      ∃ m, MendedWith tools brightness outputs w before o s m := by
  obtain ⟨start, hreaches, hfind⟩ := hfinds
  obtain ⟨attempts, hrun⟩ := hreaches.exists_tryAll
  have hdisk := (learns_firstDonor htidy (fun _ => id) hfind).1.disk_eq
  by_cases hmended : o.relative ∈ mendedIn attempts
  · exact .inr (exists_mendedWith htidy hcomposes hstanding hlacks hrun hdisk ho hmended)
  · rw [hdisk]
    exact .inl (read_eq_of_among hstanding
      (recalls_of_tryAll htidy hstanding hlacks hrun).evolves ho hmended)

/-- **A pass keeps the size of every output.** -/
theorem Finds.size_eq (hfinds : Finds tools outputs w before target donor s) (ho : o ∈ outputs) :
    Files.readPictureSize s.world.disk o.path = Files.readPictureSize w.disk o.path := by
  induction hlength : before.length using Nat.strong_induction_on
    generalizing before target donor s with
  | _ n ih =>
      rcases hfinds.read_or_mended htidy hcomposes hstanding hlacks ho with hread | ⟨m, hmended⟩
      · exact Files.inspectPicture_of_read hread
      · cases hmended with
        | @intro front after other early hsplit hearly hveils =>
            have hshorter : front.length < n := by
              rw [← hlength, hsplit, List.length_append, List.length_cons]
              omega
            exact hveils.size_eq.trans (ih _ hshorter hearly rfl)

variable (htruthful : tools.IsTruthful)

include htruthful

/-- **A donor that is found is not opaque, or it was mended before.** -/
theorem Finds.judges_or_mended (hfinds : Finds tools outputs w before target donor s)
    (htarget : target ∈ outputs) :
    tools.Judges s.world.disk donor.path false ∨
      ∃ m, MendedWith tools brightness outputs w before donor s m := by
  obtain ⟨start, hreaches, hfind⟩ := hfinds
  obtain ⟨attempts, hrun⟩ := hreaches.exists_tryAll
  have hrecalls := (recalls_of_tryAll htidy hstanding hlacks hrun).search htidy hstanding hreaches
    htarget hfind
  have hdonor := hrecalls.isDonor htidy hfind
  cases hdonor.transparent with
  | fixed hmended =>
      have hdisk := (learns_firstDonor htidy (fun _ => id) hfind).1.disk_eq
      exact .inr (exists_mendedWith htidy hcomposes hstanding hlacks hrun hdisk hdonor.mem hmended)
  | probed hnot hasked hread hverdict =>
      have hsame := read_eq_of_among hstanding hrecalls.evolves hdonor.mem hnot
      exact .inl ((htruthful.judges hverdict).congr (hsame.trans hread.symm))

/-- **A donor is not opaque, or it was mended before and is opaque exactly if nothing shows through
the mask that it got.** -/
theorem Finds.exists_picture (hfinds : Finds tools outputs w before target donor s)
    (htarget : target ∈ outputs) : ∃ p, Files.readPicture s.world.disk donor.path = .ok p ∧
      (p.isOpaque = true ↔ ∃ m, MendedWith tools brightness outputs w before donor s m ∧
        m.IsBlank brightness) := by
  have hblank : ∀ {p : Picture} {m : Picture}, Files.readPicture s.world.disk donor.path = .ok p →
      MendedWith tools brightness outputs w before donor s m →
      (p.isOpaque = true ↔ m.IsBlank brightness) := by
    intro p m hp hmended
    cases hmended with
    | intro hsplit hearly hveils => exact hveils.isOpaque_iff hp
  rcases hfinds.judges_or_mended htidy hcomposes hstanding hlacks htruthful htarget with
    hjudges | ⟨m, hmended⟩
  · obtain ⟨p, hp, htransparent⟩ := htruthful.exists_picture hjudges
    refine ⟨p, hp, fun hsolid => ?_, fun ⟨m, hmended, hm⟩ => (hblank hp hmended).mpr hm⟩
    rw [htransparent] at hsolid
    cases hsolid
  · have hpicture : ∃ p, Files.readPicture s.world.disk donor.path = .ok p := by
      cases hmended with
      | intro hsplit hearly hveils =>
          cases hveils with
          | intro hbase hresult => exact ⟨_, hresult⟩
    obtain ⟨p, hp⟩ := hpicture
    exact ⟨p, hp, fun hsolid => ⟨m, hmended, (hblank hp hmended).mp hsolid⟩,
      fun ⟨m, hmended, hm⟩ => (hblank hp hmended).mpr hm⟩

/-- **Among variants of one size no opaque donor is found.** -/
theorem Finds.not_isOpaque_of_size_eq {key : StemKey}
    (hsizes : ∀ a ∈ outputs, ∀ b ∈ outputs, a.key = key → b.key = key →
      Files.readPictureSize w.disk a.path = Files.readPictureSize w.disk b.path)
    (hfinds : Finds tools outputs w before target donor s) (htarget : target ∈ outputs)
    (hkey : target.key = key) {p : Picture}
    (hp : Files.readPicture s.world.disk donor.path = .ok p) : ¬ p.isOpaque = true := by
  induction hlength : before.length using Nat.strong_induction_on
    generalizing before target donor s p with
  | _ n ih =>
      intro hsolid
      obtain ⟨q, hq, hblank⟩ := hfinds.exists_picture htidy hcomposes hstanding hlacks htruthful
        htarget
      rw [hp] at hq
      cases hq
      obtain ⟨m, ⟨hsplit, hearly, hveils⟩, hm⟩ := hblank.mp hsolid
      obtain ⟨hdonor, -, hdonorKey⟩ := hfinds.mem htidy
      obtain ⟨hother, -, hotherKey⟩ := hearly.mem htidy
      rw [hkey] at hdonorKey
      rw [hdonorKey] at hotherKey
      cases hveils with
      | intro hbase hresult hfitted =>
          cases hfitted with
          | own hread =>
              -- the mask is the donor of the donor, which was found before
              have hshorter := congrArg List.length hsplit
              rw [List.length_append, List.length_cons] at hshorter
              exact ih _ (by omega) hearly hdonor hdonorKey hread rfl hm.isOpaque
          | scaled hsize hdiffers =>
              have hown := hearly.size_eq htidy hcomposes hstanding hlacks hother
              have hdonorSize := hearly.size_eq htidy hcomposes hstanding hlacks hdonor
              rw [hsize, ← hsizes donor hdonor _ hother hdonorKey hotherKey, ← hdonorSize,
                Files.readPictureSize_of_readPicture hbase] at hown
              exact hdiffers (Except.ok.inj hown)

end Pass

/-- **A donor is opaque only if it was mended before, from a mask through which nothing shows.**
When a pass comes to an output and finds a donor for it, the donor is a picture, and the tool, if it
answers, says whether it is opaque.  If the donor was not mended before, the tool says that it is not
opaque.  If it was, it is opaque exactly if its mask is opaque and all of it is as bright as can be;
that does not happen as long as all variants have one size, since no mask is resized then. -/
theorem donor_opaque_iff (htidy : tools.Tidy) (htruthful : tools.IsTruthful)
    (hcomposes : tools.Composes brightness) (htree : w.disk.IsTree)
    (hlacks : w.disk.Lacks InScratch) {root : String} (htarget : target ∈ outputsIn w.disk root)
    (hfinds : Finds tools (outputsIn w.disk root) w before target donor s) :
    ∃ p, Files.readPicture s.world.disk donor.path = .ok p ∧
      (∀ v answer, v.disk.read donor.path = s.world.disk.read donor.path →
        (tools.probe donor.path v).1 = .ok answer → answer = p.isOpaque) ∧
      (tools.Judges s.world.disk donor.path false ∨
        ∃ m, MendedWith tools brightness (outputsIn w.disk root) w before donor s m) ∧
      (p.isOpaque = true ↔
        ∃ m, MendedWith tools brightness (outputsIn w.disk root) w before donor s m ∧
          m.IsBlank brightness) ∧
      ((∀ a ∈ outputsIn w.disk root, ∀ b ∈ outputsIn w.disk root, a.key = target.key →
        b.key = target.key →
          Files.readPictureSize w.disk a.path = Files.readPictureSize w.disk b.path) →
        p.isOpaque = false) := by
  have hstanding : Standing (outputsIn w.disk root) w.disk := standing_outputsIn htree
  obtain ⟨p, hp, hblank⟩ := hfinds.exists_picture htidy hcomposes hstanding hlacks htruthful htarget
  refine ⟨p, hp, fun v answer hread hanswer => ?_, ?_, hblank, fun hsizes => ?_⟩
  · obtain ⟨picture, hpicture, rfl⟩ := htruthful.agrees donor.path v answer hanswer
    rw [Files.readPicture, Files.inspectPicture_of_read hread] at hpicture
    rw [Files.readPicture, hpicture] at hp
    cases hp
    rfl
  · exact hfinds.judges_or_mended htidy hcomposes hstanding hlacks htruthful htarget
  · exact Bool.eq_false_iff.mpr (Finds.not_isOpaque_of_size_eq htidy hcomposes hstanding hlacks
      htruthful hsizes hfinds htarget rfl hp)

/-! ### An opaque donor

The first output of the chain takes its alpha from a variant of another size.  What remains of it
after resizing is opaque, so the output stays as it was, and the second output finds it nevertheless. -/

namespace Sample

/-- The two outputs of the chain, as a walk finds them. -/
def firstOutput : OutputFile := ⟨"x/pic_1.png", "/out/x/pic_1.png", ⟨"pic", false⟩⟩

def secondOutput : OutputFile := ⟨"x/pic_2.png", "/out/x/pic_2.png", ⟨"pic", false⟩⟩

/-- The state after the first output was mended. -/
def afterFirst : State Unit :=
  ((mendAll Toolchain.inProcess (outputsIn chain.disk "/out") ["x/pic_1.png"]).run.run ⟨chain, ∅⟩).2

/-- The state in which the first output is found as the donor of the second one. -/
def atSecond : State Unit :=
  ((firstDonor Toolchain.inProcess
    (candidates (outputsIn chain.disk "/out") secondOutput)).run.run afterFirst).2

theorem evaluated_second :
    ((mendAll Toolchain.inProcess (outputsIn chain.disk "/out") ["x/pic_1.png"]).run.run
      ⟨chain, ∅⟩).1.toOption.any (· == [("x/pic_1.png", some "y/pic.png")]) = true ∧
    ((firstDonor Toolchain.inProcess
      (candidates (outputsIn chain.disk "/out") secondOutput)).run.run
        afterFirst).1.toOption.any (· == some firstOutput) = true ∧
    ((mergeInPlace Toolchain.inProcess scratch secondOutput.path firstOutput.path).run.run
      atSecond.world).1.toOption.isSome = true ∧
    (Toolchain.inProcess.probe firstOutput.path atSecond.world).1.toOption = some true ∧
    secondOutput ∈ outputsIn chain.disk "/out" := by
  simp only [atSecond, afterFirst, mendAll, mendTarget, candidates_eq_insertionSort]
  decide +kernel

theorem finds_second : Finds Toolchain.inProcess (outputsIn chain.disk "/out") chain
    ["x/pic_1.png"] secondOutput firstOutput atSecond := by
  obtain ⟨hpass, hsearch, -⟩ := evaluated_second
  obtain ⟨results, hresults, -⟩ := exists_eq_ok_of_any hpass
  obtain ⟨found, hfound, heq⟩ := exists_eq_ok_of_any hsearch
  obtain rfl := beq_iff_eq.mp heq
  exact ⟨afterFirst, ⟨results, Prod.ext hresults rfl⟩, Prod.ext hfound rfl⟩

theorem probe_second :
    (Toolchain.inProcess.probe firstOutput.path atSecond.world).1 = .ok true := by
  obtain ⟨-, -, -, hprobe, -⟩ := evaluated_second
  match hanswer : (Toolchain.inProcess.probe firstOutput.path atSecond.world).1 with
  | .ok answer =>
      rw [hanswer] at hprobe
      cases hprobe
      rfl
  | .error stop =>
      rw [hanswer] at hprobe
      cases hprobe

/-- Nothing shows through the mask that the first output got. -/
theorem donor_opaque_iff_chain : (Toolchain.inProcess : Toolchain Unit).Tidy ∧
    (Toolchain.inProcess : Toolchain Unit).IsTruthful ∧
    (Toolchain.inProcess : Toolchain Unit).Composes Pixel.luminance ∧ chain.disk.IsTree ∧
    chain.disk.Lacks InScratch ∧ secondOutput ∈ outputsIn chain.disk "/out" ∧
    Finds Toolchain.inProcess (outputsIn chain.disk "/out") chain ["x/pic_1.png"] secondOutput
      firstOutput atSecond ∧
    ∃ m, MendedWith Toolchain.inProcess Pixel.luminance (outputsIn chain.disk "/out") chain
      ["x/pic_1.png"] firstOutput atSecond m ∧ m.IsBlank Pixel.luminance := by
  have hsecond : secondOutput ∈ outputsIn chain.disk "/out" := evaluated_second.2.2.2.2
  refine ⟨Toolchain.tidy_inProcess Unit, Toolchain.isTruthful_inProcess Unit,
    Toolchain.composes_inProcess Unit, isTree_chain, lacks_chain, hsecond, finds_second, ?_⟩
  obtain ⟨p, -, hanswers, -, hblank, -⟩ := donor_opaque_iff (Toolchain.tidy_inProcess Unit)
    (Toolchain.isTruthful_inProcess Unit) (Toolchain.composes_inProcess Unit) isTree_chain
    lacks_chain hsecond finds_second
  exact hblank.mp (hanswers _ true rfl probe_second).symm

/-- An opaque donor is merged into an output, although the tool would say that it is opaque. -/
theorem exists_opaque_donor : (Toolchain.inProcess : Toolchain Unit).Tidy ∧
    (Toolchain.inProcess : Toolchain Unit).IsTruthful ∧
    (Toolchain.inProcess : Toolchain Unit).Composes Pixel.luminance ∧ chain.disk.IsTree ∧
    chain.disk.Lacks InScratch ∧ ∃ (target donor : OutputFile) (s : State Unit) (w' : World Unit),
      target ∈ outputsIn chain.disk "/out" ∧
      Finds Toolchain.inProcess (outputsIn chain.disk "/out") chain ["x/pic_1.png"] target donor s ∧
      (mergeInPlace Toolchain.inProcess scratch target.path donor.path).run.run s.world =
        (.ok (), w') ∧
      (Toolchain.inProcess.probe donor.path s.world).1 = .ok true := by
  obtain ⟨-, -, hmerge, -, hsecond⟩ := evaluated_second
  refine ⟨Toolchain.tidy_inProcess Unit, Toolchain.isTruthful_inProcess Unit,
    Toolchain.composes_inProcess Unit, isTree_chain, lacks_chain, secondOutput, firstOutput, atSecond,
    _, hsecond, finds_second, Prod.ext ?_ rfl, probe_second⟩
  match hrun : ((mergeInPlace Toolchain.inProcess scratch secondOutput.path
    firstOutput.path).run.run atSecond.world).1 with
  | .ok () => rfl
  | .error stop =>
      rw [hrun] at hmerge
      cases hmerge

end Sample

end Reconciliation

end CharacterArt
