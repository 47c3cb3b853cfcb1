import CharacterArt.Disk
import CharacterArt.Index.PageReader
import CharacterArt.Picture.Png.Reader

/-!
# Contents of files

## Main Definitions

* `Content` — what a file holds: bytes, a picture or an index database
* `Files` — a disk with such files
* `Files.readText`, `Files.readPicture`, `Files.readPictureSize` — texts and pictures from files
* `Files.writeText`, `Files.writePicture` — texts and pictures into files

## Design Notes

Pictures are stored in the PNG format.  A picture is read from a file only if the extension of the
file names that format.  Bytes from elsewhere may be a picture too; they stay as they are.
-/

namespace CharacterArt

open Text (Bytes)

/-- What a file holds. -/
inductive Content where
  | bytes (b : Bytes)
  | picture (p : Picture)
  | index (s : Index.Store)

/-- The bytes of a file. -/
def Content.toBytes : Content → Bytes
  | bytes b => b
  | picture p => Png.encode p
  | index s => s.toBytes

/-- The content of a file with given bytes. -/
def Content.ofBytes (b : Bytes) : Content :=
  match Index.Store.ofBytes? b with
  | some s => index s
  | none => bytes b

/-- The picture in a file. -/
def Content.picture? : Content → Option Picture
  | bytes b => Png.decode? b
  | picture p => some p
  | index _ => none

/-- The width and height of the picture in a file, whose pixels may be unreadable. -/
def Content.pictureSize? : Content → Option (Nat × Nat)
  | bytes b => Png.size? b
  | picture p => some (p.width, p.height)
  | index _ => none

/-- A disk with texts, pictures and databases. -/
abbrev Files := Disk Content

namespace Files

/-- The bytes of a file. -/
def readBytes (d : Files) (path : String) : Except Error Bytes :=
  match d.read path with
  | .ok content => .ok content.toBytes
  | .error f => .error (.file f)

/-- The text of a file. -/
def readText (d : Files) (path : String) : Except Error String := do
  match Text.Utf8.decode (← readBytes d path) with
  | .ok s => return s
  | .error _ => throw (.file .notText)

/-- Make a directory and those above it that are missing. -/
def makeDirs (d : Files) (path : String) : Except Error Files :=
  match Disk.makeDirs d path with
  | .ok d => .ok d
  | .error f => .error (.file f)

/-- Copy a file over another one. -/
def copy (d : Files) (source target : String) : Except Error Files :=
  match Disk.copy d source target with
  | .ok d => .ok d
  | .error f => .error (.file f)

/-- Move a file over another one. -/
def rename (d : Files) (source target : String) : Except Error Files :=
  match Disk.rename d source target with
  | .ok d => .ok d
  | .error f => .error (.file f)

/-- Write a text to a file. -/
def writeText (d : Files) (path text : String) : Except Error Files :=
  match d.write path (.bytes (Text.Utf8.encode text)) with
  | .ok d => .ok d
  | .error f => .error (.file f)

/-- Take away a directory and what it holds. -/
def removeTree (d : Files) (path : String) : Files :=
  match d.resolve path with
  | .ok l => d.remove l
  | .error _ => d

/-- Whether the extension of a file names the format of pictures. -/
def hasPictureExtension (path : String) : Bool :=
  match Path.extension path with
  | some e => ["png", "apng"].contains (e.map Char.toLower)
  | none => false

/-- Something that `f` finds in a file with the extension of pictures. -/
def inspectPicture {α : Type} (f : Content → Option α) (d : Files) (path : String) :
    Except Error α :=
  if !hasPictureExtension path then .error (.picture path "the image format is not supported")
  else
    match d.read path with
    | .ok content =>
      match f content with
      | some a => .ok a
      | none => .error (.picture path "the image format is not as expected")
    | .error f => .error (.picture path f.message)

/-- The picture in a file. -/
def readPicture (d : Files) (path : String) : Except Error Picture :=
  inspectPicture Content.picture? d path

/-- The width and height of the picture in a file. -/
def readPictureSize (d : Files) (path : String) : Except Error (Nat × Nat) :=
  inspectPicture Content.pictureSize? d path

/-- Write a picture to a file.  A picture without pixels has no form in a file. -/
def writePicture (d : Files) (path : String) (p : Picture) : Except Error Files :=
  if p.isEmpty then .error (.picture path "zero width or height")
  else
    match d.write path (.picture p) with
    | .ok d => .ok d
    | .error f => .error (.picture path f.message)

end Files

end CharacterArt
