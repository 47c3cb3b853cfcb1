import CharacterArt.Text.Blank
import CharacterArt.Toolchain

/-!
# External tools

A toolchain that leaves the work to two programs: `magick`, and `pngquant` if there is one.

## Main Definitions

* `ProgramResult`, `Programs` — what a program that ended left behind, and how programs are started
* `ExternalTools`, `ExternalTools.locate` — the two programs, and the search for them
* `ExternalTools.toolchain` — the toolchain of the two programs
-/

namespace CharacterArt

open Text (Bytes)

/-- What a program that ended left behind. -/
structure ProgramResult where
  status : Nat := 0
  stdout : Bytes := []
  stderr : Bytes := []
  deriving DecidableEq, Repr

/-- How programs are started.  One that is not there, or gets an argument that cannot be passed, is
not started at all. -/
structure Programs (σ : Type) where
  start : (program : String) → (args : List String) → World σ →
    Except FileFault ProgramResult × World σ

/-- The paths of the two programs. -/
structure ExternalTools where
  magick : String
  /-- Without it nothing is quantized. -/
  pngquant : Option String := none
  deriving DecidableEq, Repr

namespace ExternalTools

/-- What helps if a program is missing. -/
def hint : String :=
  "install ImageMagick 7 and make sure `magick` is on PATH (macOS: brew install imagemagick, " ++
    "Debian/Ubuntu: apt install imagemagick, " ++
    "Windows: https://imagemagick.org/script/download.php)"

/-- Run a program to its end.  A status other than zero is a failure. -/
def execute {σ : Type} (programs : Programs σ) (program : String) (args : List String) :
    Call σ ProgramResult := fun w =>
  match programs.start program args w with
  | (.error .notFound, w) => (.error (.failed (.toolMissing program hint)), w)
  | (.error fault, w) => (.error (.failed (.file fault)), w)
  | (.ok result, w) =>
    if result.status = 0 then (.ok result, w)
    else
      (.error (.failed (.toolFailed program ("exit status: " ++ toString result.status)
        (Text.trim (Text.Utf8.decodeLossy result.stderr)))), w)

/-- Run a program for what it does to files. -/
def perform {σ : Type} (programs : Programs σ) (program : String) (args : List String) :
    Call σ Unit := fun w =>
  let (result, w) := execute programs program args w
  (result.map fun _ => (), w)

/-- Whether a program can be run. -/
def responds {σ : Type} (programs : Programs σ) (program arg : String) (w : World σ) :
    Bool × World σ :=
  match programs.start program [arg] w with
  | (.ok result, w) => (result.status == 0, w)
  | (.error _, w) => (false, w)

/-- Find the programs by their names.  The second one is looked for only if it is wanted, and may
be missing. -/
def locate {σ : Type} (programs : Programs σ) (wantQuantizer : Bool) (w : World σ) :
    Except Error ExternalTools × World σ :=
  let (found, w) := responds programs "magick" "-version" w
  if !found then (.error (.toolMissing "magick" hint), w)
  else if !wantQuantizer then (.ok ⟨"magick", none⟩, w)
  else
    let (found, w) := responds programs "pngquant" "--version" w
    (.ok ⟨"magick", if found then some "pngquant" else none⟩, w)

/-- What the answer to the question for opacity says. -/
def readAnswer (stdout : Bytes) : Bool :=
  (Text.trim (Text.Utf8.decodeLossy stdout)).map Char.toLower == "true"

/-- Ask whether a picture is opaque. -/
def probe {σ : Type} (t : ExternalTools) (programs : Programs σ) (image : String) :
    Call σ Bool := fun w =>
  let (result, w) := execute programs t.magick ["identify", "-format", "%[opaque]", image] w
  (result.map fun r => readAnswer r.stdout, w)

/-- What is put behind the stem of a picture for its quantized form. -/
def quantizedExtension : String := "fs8.png"

/-- Quantize a picture beside it, and move the result over it. -/
def quantize {σ : Type} (t : ExternalTools) (programs : Programs σ) (image : String) :
    Call σ Unit := fun w =>
  match t.pngquant with
  | none => (.ok (), w)
  | some program =>
    match execute programs program
        ["--force", "--strip", "--ext", "." ++ quantizedExtension, image] w with
    | (.error stop, w) => (.error stop, w)
    | (.ok _, w) =>
      match Files.rename w.disk (Path.withExtension image quantizedExtension) image with
      | .ok d => (.ok (), { w with disk := d })
      | .error e => (.error (.failed e), w)

/-- The toolchain of the two programs. -/
def toolchain {σ : Type} (t : ExternalTools) (programs : Programs σ) : Toolchain σ where
  probe := t.probe programs
  resize source width height target :=
    perform programs t.magick
      [source, "-resize", toString width ++ "x" ++ toString height ++ "!", target]
  copyAlpha base mask target :=
    perform programs t.magick [base, mask, "-compose", "copy-opacity", "-composite", target]
  quantize := t.quantize programs
  canQuantize := t.pngquant.isSome

end ExternalTools

end CharacterArt
