import CharacterArt.Bundle.Basic
import CharacterArt.Lz4.Compressor

/-!
# Writing bundles

## Main Definitions

* `Bundle.Packed` — an object with its compressed pixels
* `Bundle.Packed.ofPicture`, `Bundle.Packed.other` — objects with and without pixels
* `Bundle.encode` — the file with given objects

## Design Notes

An entry of the table tells the place of its payload in the file, so the size of the whole table is
known before the first entry is written: `entrySize` is the number of bytes of an entry, and
`entriesFrom` lays the payloads one after the other behind the table.
-/

namespace CharacterArt.Bundle

open Text (Bytes)

/-- An object with its compressed pixels. -/
structure Packed where
  tag : UInt8
  pathId : PathId
  name : String
  container : String
  width : UInt32
  height : UInt32
  payload : Bytes
  rawSize : UInt32
  deriving DecidableEq, Repr

namespace Packed

/-- An image object, with `compress` for its pixels. -/
def ofPictureWith (compress : Bytes → Bytes) (kind : AssetKind) (pathId : PathId)
    (name container : String) (picture : Picture) : Packed :=
  let raw := picture.toRaw
  { tag := kind.tag
    pathId := pathId
    name := name
    container := container
    width := picture.width.toUInt32
    height := picture.height.toUInt32
    payload := compress raw
    rawSize := raw.length.toUInt32 }

/-- An image object. -/
def ofPicture : (kind : AssetKind) → (pathId : PathId) → (name container : String) →
    (picture : Picture) → Packed :=
  ofPictureWith Lz4.compress

/-- The tag of objects without pixels. -/
def otherTag : UInt8 := 2

/-- An object without pixels. -/
def other (pathId : PathId) (name container : String) : Packed :=
  { tag := otherTag
    pathId := pathId
    name := name
    container := container
    width := 0
    height := 0
    payload := []
    rawSize := 0 }

/-- The greatest number of bytes of a text in a table. -/
def maxTextSize : Nat := 65535

/-- The number of bytes of an entry without its two texts. -/
def fixedSize : Nat := 1 + 8 + 2 + 2 + 4 + 4 + 8 + 4 + 4

/-- The number of bytes of an object's entry. -/
def entrySize (o : Packed) : Nat :=
  fixedSize + o.name.utf8ByteSize + o.container.utf8ByteSize

/-- The entry of an object whose payload starts at `offset`. -/
def entryAt (o : Packed) (offset : Nat) : Entry :=
  { tag := o.tag
    pathId := o.pathId
    name := o.name
    container := o.container
    width := o.width
    height := o.height
    offset := offset.toUInt64
    compressedSize := o.payload.length.toUInt32
    rawSize := o.rawSize }

end Packed

/-- The number of bytes before the entries of a table. -/
def headerSize : Nat := 4 + 4 + 4

/-- The first text that is too long for a table, with the number of its object. -/
def tooLong? (objects : List Packed) : Option (PathId × Nat) :=
  (objects.flatMap fun o => [(o.pathId, o.name.utf8ByteSize), (o.pathId, o.container.utf8ByteSize)])
    |>.find? fun (_, size) => decide (Packed.maxTextSize < size)

/-- The entries of objects whose payloads stand one after the other from `offset` on. -/
def entriesFrom (offset : Nat) : List Packed → List Entry
  | [] => []
  | o :: rest => o.entryAt offset :: entriesFrom (offset + o.payload.length) rest

/-- The number of bytes of the entries of objects. -/
def entriesSize : List Packed → Nat
  | [] => 0
  | o :: rest => o.entrySize + entriesSize rest

/-- The table of the objects of a file. -/
def tableOf (objects : List Packed) : List Entry :=
  entriesFrom (headerSize + entriesSize objects) objects

/-- The file with given objects. -/
def encode (objects : List Packed) : Except Error Bytes :=
  match tooLong? objects with
  | some (id, size) => .error (.bundleCorrupt "" (.textTooLong id size))
  | none => .ok (encodeTable (tableOf objects) ++ objects.flatMap Packed.payload)

end CharacterArt.Bundle
