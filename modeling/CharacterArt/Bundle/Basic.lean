import CharacterArt.Bundle.Table
import CharacterArt.Lz4.Block
import CharacterArt.Path

/-!
# Bundles

A bundle is a file with a table of objects and, after it, their compressed pixels.

## Main Definitions

* `Bundle` — a file whose table has been read
* `Bundle.open` — read the table of a file
* `Bundle.readPicture` — decompress the pixels of an entry
* `Bundle.decode` — the asset that an entry describes

## Design Notes

Pixels are read on demand, so indexing a bundle decompresses nothing.  A claim about the number of
raw bytes is checked against the least and the greatest number that the payload can hold before
anything is decompressed.
-/

namespace CharacterArt

open Text (Bytes)

/-- A bundle file whose table has been read. -/
structure Bundle where
  /-- What the bundle is called: the name of the file without its extension. -/
  name : String
  /-- The version of the format. -/
  version : Nat
  entries : List Bundle.Entry
  /-- The whole file. -/
  bytes : Bytes
  deriving DecidableEq, Repr

namespace Bundle

/-- Read the table of a file that was found at `path`. -/
def ofBytes (path : String) (bytes : Bytes) : Except Error Bundle :=
  let name := (Path.stem path).getD ""
  (readTable path name bytes).map fun (version, entries) => ⟨name, version, entries, bytes⟩

/-- The greatest number of bytes that a block can hold. -/
def maxExpansion (compressed : Nat) : Nat :=
  compressed * 255 + 16

/-- Decompress the pixels of an entry. -/
def readPicture (b : Bundle) (e : Entry) : Except Error Picture :=
  let width := e.width.toNat
  let height := e.height.toNat
  let raw := e.rawSize.toNat
  let offset := e.offset.toNat
  let compressed := e.compressedSize.toNat
  if raw ≠ width * height * 4 then
    .error (.bundleCorrupt b.name (.rawSize e.pathId raw width height))
  else if UInt64.size ≤ offset + compressed ∨ b.bytes.length < offset + compressed then
    .error (.bundleCorrupt b.name (.pastEnd e.pathId compressed offset))
  else if maxExpansion compressed < raw then
    .error (.bundleCorrupt b.name (.overclaimed e.pathId raw compressed))
  else
    match Binary.slice? offset compressed b.bytes with
    | none => .error (.file .endsEarly)
    | some block =>
      match Lz4.decode raw block with
      | .error f => .error (.decompression b.name e.pathId f.message)
      | .ok pixels =>
        match Picture.ofRaw? width height pixels with
        | some picture => .ok picture
        | none => .error (.bundleCorrupt b.name (.pixelMismatch e.pathId))

/-- The asset that an entry describes. -/
def decode (b : Bundle) (e : Entry) : Except Error Asset :=
  match e.kind? with
  | none => .error (.objectNotFound b.name e.pathId)
  | some kind =>
    (b.readPicture e).map fun picture => {
      pathId := e.pathId
      name := e.name
      kind := kind
      bundle := b.name
      container := e.container
      picture := picture }

end Bundle

end CharacterArt
