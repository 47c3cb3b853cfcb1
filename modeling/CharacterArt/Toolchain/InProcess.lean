import CharacterArt.Picture.Composite
import CharacterArt.Toolchain

/-!
# Merging in process

A toolchain that needs no other program.

## Main Definitions

* `InProcess.probe`, `InProcess.resize`, `InProcess.copyAlpha`, `InProcess.quantize` — the calls on
  files
* `Toolchain.inProcess` — the toolchain of these calls
-/

namespace CharacterArt

namespace InProcess

/-- Whether every pixel of a picture is fully opaque. -/
def probe (image : String) (d : Files) : Except Error Bool :=
  (Files.readPicture d image).map Picture.isOpaque

/-- Write a picture at another size. -/
def resize (source : String) (width height : Nat) (target : String) (d : Files) :
    Except Error Files := do
  Files.writePicture d target ((← Files.readPicture d source).resize width height)

/-- Write a picture with the alpha of a mask. -/
def copyAlpha (base mask target : String) (d : Files) : Except Error Files := do
  let picture ← Files.readPicture d base
  Files.writePicture d target (picture.copyAlpha (← Files.readPicture d mask))

/-- Write a picture with fewer colors. -/
def quantize (source target : String) (d : Files) : Except Error Files := do
  Files.writePicture d target (← Files.readPicture d source).quantize

/-- A call that reads files. -/
def reading {σ α : Type} (f : Files → Except Error α) : Call σ α := fun w =>
  match f w.disk with
  | .ok a => (.ok a, w)
  | .error e => (.error (.failed e), w)

/-- A call that changes files, all or nothing. -/
def writing {σ : Type} (f : Files → Except Error Files) : Call σ Unit := fun w =>
  match f w.disk with
  | .ok d => (.ok (), { w with disk := d })
  | .error e => (.error (.failed e), w)

end InProcess

/-- The toolchain that needs no other program. -/
def Toolchain.inProcess {σ : Type} : Toolchain σ where
  probe image := InProcess.reading (InProcess.probe image)
  resize source width height target := InProcess.writing (InProcess.resize source width height target)
  copyAlpha base mask target := InProcess.writing (InProcess.copyAlpha base mask target)
  quantize image := InProcess.writing (InProcess.quantize image image)

end CharacterArt
