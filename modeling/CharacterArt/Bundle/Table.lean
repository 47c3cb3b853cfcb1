import CharacterArt.Binary
import CharacterArt.Error

/-!
# Object tables

A bundle opens with a mark, a version and the table of its objects.  An entry of the table names
an object and tells where in the file its compressed pixels lie.

## Main Definitions

* `Bundle.Entry` — an entry of the table
* `Bundle.Entry.encode`, `Bundle.encodeTable` — entries and tables as bytes
* `Bundle.readEntry`, `Bundle.readTable` — entries, and versions with tables, from bytes

## Design Notes

All numbers have the least significant byte first.  An entry is the concatenation of its fields in
the order of the structure; a text stands after its length in two bytes.
-/

namespace CharacterArt.Bundle

open Text (Bytes Utf8Fault)
open Binary (littleEndian ofLittleEndian splitExactly)

/-- The mark at the start of a bundle. -/
def magic : Bytes := [0x47, 0x46, 0x41, 0x42]

/-- The version of the format. -/
def formatVersion : Nat := 1

/-- How many entries a table may have. -/
def maxEntries : Nat := 1 <<< 20

/-- An entry of an object table. -/
structure Entry where
  /-- The kind of the object; only some tags are kinds of image. -/
  tag : UInt8
  pathId : PathId
  name : String
  container : String
  width : UInt32
  height : UInt32
  /-- Where in the file the payload starts. -/
  offset : UInt64
  /-- How many bytes the payload has in the file. -/
  compressedSize : UInt32
  /-- How many bytes the pixels have. -/
  rawSize : UInt32
  deriving DecidableEq, Repr

/-- The kind of image that an entry describes, if it is an image. -/
def Entry.kind? (e : Entry) : Option AssetKind :=
  AssetKind.ofTag? e.tag

/-! ### Entries as bytes -/

/-- A text after its length. -/
def encodeText (s : String) : Bytes :=
  let bytes := Text.Utf8.encode s
  littleEndian 2 bytes.length ++ bytes

/-- The bytes of an entry. -/
def Entry.encode (e : Entry) : Bytes :=
  [e.tag] ++ littleEndian 8 e.pathId.toUInt64.toNat ++ encodeText e.name ++
    encodeText e.container ++ littleEndian 4 e.width.toNat ++ littleEndian 4 e.height.toNat ++
    littleEndian 8 e.offset.toNat ++ littleEndian 4 e.compressedSize.toNat ++
    littleEndian 4 e.rawSize.toNat

/-- The mark, the version and the table of a bundle. -/
def encodeTable (entries : List Entry) : Bytes :=
  magic ++ littleEndian 4 formatVersion ++ littleEndian 4 entries.length ++
    entries.flatMap Entry.encode

/-! ### Entries from bytes -/

/-- Why no entry can be read. -/
inductive EntryFault where
  | truncated
  | invalidText (fault : Utf8Fault)
  deriving DecidableEq, Repr

/-- Takes the fields of entries from the front of a byte sequence. -/
abbrev FieldReader := StateT Bytes (Except EntryFault)

/-- Take `n` bytes. -/
def readBytes (n : Nat) : FieldReader Bytes := fun bytes =>
  match splitExactly n bytes with
  | some r => .ok r
  | none => .error .truncated

/-- Take a number of `width` bytes. -/
def readNat (width : Nat) : FieldReader Nat :=
  ofLittleEndian <$> readBytes width

/-- Take a text. -/
def readText : FieldReader String := do
  let bytes ← readBytes (← readNat 2)
  match Text.Utf8.decode bytes with
  | .ok s => return s
  | .error f => throw (.invalidText f)

/-- Take an entry. -/
def readEntry : FieldReader Entry := do
  let tag ← readNat 1
  let pathId ← readNat 8
  let name ← readText
  let container ← readText
  let width ← readNat 4
  let height ← readNat 4
  let offset ← readNat 8
  let compressedSize ← readNat 4
  let rawSize ← readNat 4
  return {
    tag := tag.toUInt8
    pathId := pathId.toUInt64.toInt64
    name := name
    container := container
    width := width.toUInt32
    height := height.toUInt32
    offset := offset.toUInt64
    compressedSize := compressedSize.toUInt32
    rawSize := rawSize.toUInt32 }

/-- Take `count` entries, where `read` holds the entries before them backwards. -/
def readEntries : (count : Nat) → (read : List Entry) → Bytes → Except BundleFault (List Entry)
  | 0, read, _ => .ok read.reverse
  | count + 1, read, bytes =>
    match readEntry bytes with
    | .ok (entry, rest) => readEntries count (entry :: read) rest
    | .error .truncated => .error (.tableTruncated read.length)
    | .error (.invalidText f) => .error (.invalidText f)

/-- The version and the table of a bundle.  `path` is where the bundle was found and `name` what it
is called. -/
def readTable (path name : String) (bytes : Bytes) : Except Error (Nat × List Entry) :=
  match splitExactly 4 bytes with
  | none => .error (.bundleCorrupt name .headerTruncated)
  | some (mark, rest) =>
    if mark ≠ magic then .error (.bundleMagic path mark)
    else
      match splitExactly 4 rest with
      | none => .error (.bundleCorrupt name .headerTruncated)
      | some (version, rest) =>
        if ofLittleEndian version ≠ formatVersion then
          .error (.bundleVersion (ofLittleEndian version))
        else
          match splitExactly 4 rest with
          | none => .error (.bundleCorrupt name .headerTruncated)
          | some (count, rest) =>
            let count := ofLittleEndian count
            if maxEntries < count then .error (.bundleCorrupt name (.tableTooLarge count))
            else
              match readEntries count [] rest with
              | .ok entries => .ok (ofLittleEndian version, entries)
              | .error f => .error (.bundleCorrupt name f)

end CharacterArt.Bundle
