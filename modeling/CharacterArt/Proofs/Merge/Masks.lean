import CharacterArt.Proofs.Merge.Effects

/-!
# Masks

A mask that is transparent somewhere gives its alpha channel to a picture, and one that is opaque its
brightness.  So a picture is opaque exactly if its mask is opaque and of full brightness throughout.

## Main Definitions

* `Picture.HasAlphaOf` — a picture that took the alpha of a mask
* `Picture.IsBlank` — a mask through which nothing shows
* `Toolchain.Composes` — a tool that resizes and joins pictures as it promises

## Main Results

* `Picture.HasAlphaOf.isOpaque_iff` — when a picture with a mask is opaque
* `Files.readPictureSize_of_readPicture` — the size of a picture is the one that is read first
* `Toolchain.composes_inProcess` — the tool that works in process keeps its promises
-/

namespace CharacterArt

/-! ### Pictures with a mask -/

namespace Picture

variable {p m : Picture} {x y : Nat}

/-- The place of a pixel in the sequence of all of them. -/
theorem place_lt {width height : Nat} (hx : x < width) (hy : y < height) :
    y * width + x < width * height := by
  calc y * width + x < y * width + width := Nat.add_lt_add_left hx _
    _ = (y + 1) * width := (Nat.succ_mul y width).symm
    _ ≤ height * width := Nat.mul_le_mul_right width hy
    _ = width * height := Nat.mul_comm height width

theorem pixelAt_tabulate {width height : Nat} {f : Nat → Nat → Pixel} (hx : x < width)
    (hy : y < height) : (tabulate width height f).pixelAt x y = f x y := by
  have hcolumn : (y * width + x) % width = x := by
    rw [Nat.mul_comm, Nat.mul_add_mod, Nat.mod_eq_of_lt hx]
  have hrow : (y * width + x) / width = y := by
    rw [Nat.mul_comm, Nat.mul_add_div (by omega), Nat.div_eq_of_lt hx, Nat.add_zero]
  simp [tabulate, pixelAt, Array.getD, place_lt hx hy, hcolumn, hrow]

/-- What holds of the pixel in every place holds of every pixel. -/
theorem forall_pixels_iff {P : Pixel → Prop} : (∀ q ∈ p.pixels, P q) ↔
    ∀ x y, x < p.width → y < p.height → P (p.pixelAt x y) := by
  constructor
  · intro h x y hx hy
    have hplace : y * p.width + x < p.pixels.size := by
      rw [p.size_pixels]
      exact place_lt hx hy
    rw [pixelAt, Array.getD, dif_pos hplace]
    exact h _ (Array.getElem_mem hplace)
  · intro h q hq
    obtain ⟨i, hi, rfl⟩ := Array.mem_iff_getElem.mp hq
    have hsize := hi
    rw [p.size_pixels] at hsize
    have hwidth : 0 < p.width := Nat.pos_of_ne_zero fun hzero => by simp [hzero] at hsize
    have hplace := h (i % p.width) (i / p.width) (Nat.mod_lt i hwidth)
      (Nat.div_lt_of_lt_mul hsize)
    rwa [pixelAt, Nat.mul_comm, Nat.div_add_mod, Array.getD, dif_pos hi] at hplace

theorem isOpaque_iff : p.isOpaque = true ↔ ∀ q ∈ p.pixels, q.alpha = 255 := by
  rw [isOpaque, Array.all_eq_true']
  simp

/-- A picture has the alpha of a mask of its size: the alpha of its pixels if some of them are
transparent, and their brightness otherwise. -/
def HasAlphaOf (brightness : Pixel → UInt8) (p m : Picture) : Prop :=
  ∀ x y, x < p.width → y < p.height →
    (p.pixelAt x y).alpha =
      if m.isTransparent then (m.pixelAt x y).alpha else brightness (m.pixelAt x y)

/-- A mask through which nothing shows: it is opaque, and all of it is as bright as can be. -/
def IsBlank (brightness : Pixel → UInt8) (m : Picture) : Prop :=
  ∀ q ∈ m.pixels, q.alpha = 255 ∧ brightness q = 255

theorem IsBlank.isOpaque {brightness : Pixel → UInt8} (h : m.IsBlank brightness) :
    m.isOpaque = true :=
  isOpaque_iff.mpr fun q hq => (h q hq).1

/-- **A picture is opaque exactly if nothing shows through its mask.** -/
theorem HasAlphaOf.isOpaque_iff {brightness : Pixel → UInt8} (h : p.HasAlphaOf brightness m)
    (hwidth : m.width = p.width) (hheight : m.height = p.height) :
    p.isOpaque = true ↔ m.IsBlank brightness := by
  have hp : p.isOpaque = true ↔ ∀ x y, x < m.width → y < m.height →
      (if m.isTransparent then (m.pixelAt x y).alpha else brightness (m.pixelAt x y)) = 255 := by
    rw [Picture.isOpaque_iff, forall_pixels_iff, hwidth, hheight]
    refine forall_congr' fun x => forall_congr' fun y => ?_
    refine forall_congr' fun hx => forall_congr' fun hy => ?_
    rw [h x y hx hy]
  rw [hp]
  cases hm : m.isOpaque with
  | true =>
      have halpha := forall_pixels_iff.mp (Picture.isOpaque_iff.mp hm)
      simp only [isTransparent, hm, Bool.not_true, Bool.false_eq_true, if_false]
      rw [IsBlank, forall_pixels_iff (P := fun q => q.alpha = 255 ∧ brightness q = 255)]
      refine forall_congr' fun x => forall_congr' fun y => ?_
      refine forall_congr' fun hx => forall_congr' fun hy => ?_
      exact ⟨fun hbright => ⟨halpha x y hx hy, hbright⟩, And.right⟩
  | false =>
      have hnot : ¬ m.isOpaque = true := by simp [hm]
      simp only [isTransparent, hm, Bool.not_false, if_true]
      rw [← forall_pixels_iff (P := fun q => q.alpha = 255), ← Picture.isOpaque_iff]
      exact iff_of_false hnot fun hblank => hnot hblank.isOpaque

/-- The alpha that the tool in process gives to a picture. -/
theorem hasAlphaOf_copyAlpha (base mask : Picture) :
    (base.copyAlpha mask).HasAlphaOf Pixel.luminance mask := by
  intro x y hx hy
  have hwidth : x < base.width := hx
  have hheight : y < base.height := hy
  rw [copyAlpha, pixelAt_tabulate hwidth hheight, Pixel.maskValue]

end Picture

/-! ### Sizes -/

/-- The size of a picture is known before its pixels. -/
theorem Png.size?_of_decode? {file : Text.Bytes} {p : Picture} (h : Png.decode? file = some p) :
    Png.size? file = some (p.width, p.height) := by
  unfold Png.decode? at h
  obtain ⟨⟨f, rest⟩, hfront, h⟩ := Option.bind_eq_some_iff.mp h
  rw [Png.size?, hfront]
  dsimp only at h
  split at h
  · cases h
  split at h
  · cases h
  obtain ⟨data, -, h⟩ := Option.bind_eq_some_iff.mp h
  obtain ⟨pixels, -, h⟩ := Option.bind_eq_some_iff.mp h
  obtain ⟨passes, -, h⟩ := Option.bind_eq_some_iff.mp h
  cases h
  rfl

theorem Content.pictureSize?_of_picture? {c : Content} {p : Picture} (h : c.picture? = some p) :
    c.pictureSize? = some (p.width, p.height) := by
  cases c with
  | bytes b => exact Png.size?_of_decode? h
  | picture q =>
      cases h
      rfl
  | index s => cases h

namespace Files

variable {d : Files} {path : String} {p : Picture}

theorem inspectPicture_eq_ok_iff {α : Type} {f : Content → Option α} {a : α} :
    inspectPicture f d path = .ok a ↔ hasPictureExtension path = true ∧
      ∃ content, d.read path = .ok content ∧ f content = some a := by
  unfold inspectPicture
  cases hasPictureExtension path with
  | false => simp
  | true =>
      cases d.read path with
      | error e => simp
      | ok content =>
          cases hf : f content with
          | none => simp [hf]
          | some b => simp [hf]

/-- A picture has the size that is read without it. -/
theorem readPictureSize_of_readPicture (h : readPicture d path = .ok p) :
    readPictureSize d path = .ok (p.width, p.height) := by
  obtain ⟨hextension, content, hread, hpicture⟩ := inspectPicture_eq_ok_iff.mp h
  exact inspectPicture_eq_ok_iff.mpr
    ⟨hextension, content, hread, Content.pictureSize?_of_picture? hpicture⟩

/-- The names of the pictures in scratch directories. -/
def scratchNames : List String :=
  ["color.png", "mask.png", "mask_resized.png", "out.png", "merged.png"]

/-- The files in scratch directories are named as pictures. -/
theorem hasPictureExtension_scratch (base : String) {name : String} (h : name ∈ scratchNames) :
    hasPictureExtension (Path.join base name) = true := by
  have hnames : ∀ name ∈ scratchNames,
      Path.fileName name = some name ∧ hasPictureExtension name = true := by
    decide +kernel
  obtain ⟨hname, hextension⟩ := hnames name h
  unfold hasPictureExtension Path.extension at hextension ⊢
  rwa [Path.fileName_join hname, ← hname]

/-- A picture that was written is read again. -/
theorem readPicture_of_writePicture {d' : Files} (hextension : hasPictureExtension path = true)
    (h : writePicture d path p = .ok d') : readPicture d' path = .ok p :=
  inspectPicture_eq_ok_iff.mpr ⟨hextension, _,
    Disk.read_eq_ok_iff.mpr (Disk.find?_of_write (write_of_writePicture h)), rfl⟩

end Files

/-! ### Tools that join pictures -/

/-- What the calls of a tool promise when they end well: a picture is written at exactly the size
that is asked for, and a picture is written with a mask as its alpha channel. -/
structure Toolchain.Composes {σ : Type} (tools : Toolchain σ) (brightness : Pixel → UInt8) :
    Prop where
  resize : ∀ {source target : String} {width height : Nat} {w w' : World σ},
    Files.hasPictureExtension target = true →
    tools.resize source width height target w = (.ok (), w') →
    ∃ p, Files.readPicture w'.disk target = .ok p ∧ p.width = width ∧ p.height = height
  copyAlpha : ∀ {base mask target : String} {w w' : World σ},
    Files.hasPictureExtension target = true →
    tools.copyAlpha base mask target w = (.ok (), w') →
    ∃ b m p, Files.readPicture w.disk base = .ok b ∧ Files.readPicture w.disk mask = .ok m ∧
      Files.readPicture w'.disk target = .ok p ∧ p.width = b.width ∧ p.height = b.height ∧
      (m.width = b.width → m.height = b.height → p.HasAlphaOf brightness m)

/-- The tool that works in process keeps these promises. -/
theorem Toolchain.composes_inProcess (σ : Type) :
    (Toolchain.inProcess : Toolchain σ).Composes Pixel.luminance where
  resize := by
    intro source target width height w w' hextension h
    unfold inProcess InProcess.writing at h
    dsimp only at h
    split at h
    · next d hd =>
        cases h
        obtain ⟨p, -, hwrite⟩ := bind_eq_ok_iff.mp hd
        exact ⟨_, Files.readPicture_of_writePicture hextension hwrite, rfl, rfl⟩
    · cases h
  copyAlpha := by
    intro base mask target w w' hextension h
    unfold inProcess InProcess.writing at h
    dsimp only at h
    split at h
    · next d hd =>
        cases h
        obtain ⟨b, hb, hd⟩ := bind_eq_ok_iff.mp hd
        obtain ⟨m, hm, hwrite⟩ := bind_eq_ok_iff.mp hd
        exact ⟨b, m, _, hb, hm, Files.readPicture_of_writePicture hextension hwrite, rfl, rfl,
          fun _ _ => Picture.hasAlphaOf_copyAlpha b m⟩
    · cases h

end CharacterArt
