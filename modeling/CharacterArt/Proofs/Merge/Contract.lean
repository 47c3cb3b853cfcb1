import CharacterArt.Proofs.Merge.Masks

/-!
# What is asked of a tool

A tool resizes a picture to exactly the size that is asked for, and it joins a base and a mask of one
size into a picture with the colors of the base and the alpha of the mask.  What it makes of a mask of
another size is its own affair.  It writes the file that it is told to write, and leaves all other
files as they are, also if it fails.

## Main Definitions

* `Picture.IsComposite` — the picture that a base and a mask make
* `Toolchain.Meets` — a tool that does what is asked of it

## Main Results

* `Toolchain.Meets.isComposite` — a base and a mask of one size are joined into their composite
* `Toolchain.meets_inProcess` — the tool that works in process does what is asked of it
-/

namespace CharacterArt

namespace Picture

/-- The colors of a picture are those of another one, place by place. -/
def HasColorsOf (p b : Picture) : Prop :=
  ∀ x y, x < p.width → y < p.height →
    (p.pixelAt x y).red = (b.pixelAt x y).red ∧
      (p.pixelAt x y).green = (b.pixelAt x y).green ∧
      (p.pixelAt x y).blue = (b.pixelAt x y).blue

/-- The picture that a base and a mask of one size make: it has the size and the colors of the base,
and the alpha of the mask. -/
structure IsComposite (brightness : Pixel → UInt8) (b m p : Picture) : Prop where
  size_eq : p.width = b.width ∧ p.height = b.height
  fits : m.width = b.width ∧ m.height = b.height
  colors : p.HasColorsOf b
  alpha : p.HasAlphaOf brightness m

theorem hasColorsOf_copyAlpha (base mask : Picture) : (base.copyAlpha mask).HasColorsOf base := by
  intro x y hx hy
  have hwidth : x < base.width := hx
  have hheight : y < base.height := hy
  rw [copyAlpha, pixelAt_tabulate hwidth hheight]
  exact ⟨rfl, rfl, rfl⟩

end Picture

/-- What is asked of a tool. -/
structure Toolchain.Meets {σ : Type} (tools : Toolchain σ) (brightness : Pixel → UInt8) : Prop where
  composes : tools.Composes brightness
  /-- A base keeps its colors, if the mask has its size. -/
  colors : ∀ {base mask target : String} {w w' : World σ} {b m p : Picture},
    tools.copyAlpha base mask target w = (.ok (), w') →
    Files.readPicture w.disk base = .ok b → Files.readPicture w.disk mask = .ok m →
    m.width = b.width → m.height = b.height → Files.readPicture w'.disk target = .ok p →
    p.HasColorsOf b
  probe : ∀ image w, (tools.probe image w).2.disk = w.disk
  resize : ∀ source width height target,
    (tools.resize source width height target).WritesOnly target
  copyAlpha : ∀ base mask target, (tools.copyAlpha base mask target).WritesOnly target
  quantize : ∀ image, (tools.quantize image).WritesOnly image

namespace Toolchain

section Meets

variable {σ : Type} {tools : Toolchain σ} {brightness : Pixel → UInt8}

theorem Meets.tidy (h : tools.Meets brightness) : tools.Tidy where
  probe := h.probe
  resize source width height target := (h.resize source width height target).staysBeside
  copyAlpha base mask target := (h.copyAlpha base mask target).staysBeside
  quantize image := (h.quantize image).staysBeside

/-- **A base and a mask of one size are joined into their composite.** -/
theorem Meets.isComposite (h : tools.Meets brightness) {base mask target : String}
    {w w' : World σ} (hextension : Files.hasPictureExtension target = true)
    (hjoin : tools.copyAlpha base mask target w = (.ok (), w')) {b : Picture}
    (hbase : Files.readPicture w.disk base = .ok b)
    (hmask : Files.readPictureSize w.disk mask = .ok (b.width, b.height)) :
    ∃ m p, Files.readPicture w.disk mask = .ok m ∧ Files.readPicture w'.disk target = .ok p ∧
      Picture.IsComposite brightness b m p := by
  obtain ⟨b', m, p, hb, hm, hp, hwidth, hheight, halpha⟩ := h.composes.copyAlpha hextension hjoin
  rw [hbase] at hb
  cases hb
  have hsize := Files.readPictureSize_of_readPicture hm
  rw [hmask] at hsize
  obtain ⟨hmwidth, hmheight⟩ := Prod.mk.inj (Except.ok.inj hsize)
  exact ⟨m, p, hm, hp, ⟨hwidth, hheight⟩, ⟨hmwidth.symm, hmheight.symm⟩,
    h.colors hjoin hbase hm hmwidth.symm hmheight.symm hp, halpha hmwidth.symm hmheight.symm⟩

end Meets

/-- **The tool that works in process does what is asked of it.** -/
theorem meets_inProcess (σ : Type) : (inProcess : Toolchain σ).Meets Pixel.luminance where
  composes := composes_inProcess σ
  colors := by
    intro base mask target w w' b m p h hb hm _ _ hp
    unfold inProcess InProcess.writing at h
    dsimp only at h
    split at h
    · next d hd =>
        cases h
        obtain ⟨b', hb', hd⟩ := bind_eq_ok_iff.mp hd
        obtain ⟨m', hm', hwrite⟩ := bind_eq_ok_iff.mp hd
        rw [hb] at hb'
        cases hb'
        have hextension := (Files.inspectPicture_eq_ok_iff.mp hp).1
        rw [Files.readPicture_of_writePicture hextension hwrite] at hp
        cases hp
        exact Picture.hasColorsOf_copyAlpha b m'
    · cases h
  probe := (tidy_inProcess σ).probe
  resize := InProcess.writesOnly_resize
  copyAlpha := InProcess.writesOnly_copyAlpha
  quantize := InProcess.writesOnly_quantize

end Toolchain

end CharacterArt
