import CharacterArt.Index.Pages

/-!
# Index databases from files

## Main Definitions

* `Pages.readRecord` — the values of a row from its bytes
* `Pages.tableRows` — the rows of a page
* `Store.ofBytes?` — the database of a file, if it is one that `Store.toBytes` makes

## Design Notes

Only files are read whose list of tables is the one that is written, which says where everything
else is.
-/

namespace CharacterArt.Index

open Text (Bytes)
open Binary (splitExactly)

namespace Pages

/-- The number that bytes spell, most significant first. -/
def ofBigEndian (bytes : Bytes) : Nat :=
  Binary.ofLittleEndian bytes.reverse

/-- A number in groups of seven bits, after those that make up `high`, and the rest. -/
def readVarintFrom (high : Nat) : Bytes → Option (Nat × Bytes)
  | [] => none
  | b :: rest =>
    let n := high * 128 + (b &&& 0x7F).toNat
    if b < 0x80 then some (n, rest) else readVarintFrom n rest

/-- A number in groups of seven bits, and the rest. -/
def readVarint : Bytes → Option (Nat × Bytes) :=
  readVarintFrom 0

/-- Numbers in groups of seven bits, at most `fuel` of them, up to the end. -/
def readVarints : (fuel : Nat) → Bytes → Option (List Nat)
  | _, [] => some []
  | 0, _ :: _ => none
  | fuel + 1, bytes => do
    let (n, rest) ← readVarint bytes
    return n :: (← readVarints fuel rest)

/-- The number that bytes spell in two's complement. -/
def signed (bytes : Bytes) : Int :=
  let n := ofBigEndian bytes
  if n < 1 <<< (8 * bytes.length - 1) then n else n - (1 <<< (8 * bytes.length) : Nat)

/-- A value of a given code, and the rest. -/
def readValue (code : Nat) (bytes : Bytes) : Option (Value × Bytes) :=
  if code = 0 then some (.null, bytes)
  else if code = 7 then do
    let (front, rest) ← splitExactly 8 bytes
    return (.real (Float.ofBits (ofBigEndian front).toUInt64), rest)
  else if code = 8 then some (.integer 0, bytes)
  else if code = 9 then some (.integer 1, bytes)
  else if 13 ≤ code ∧ code % 2 = 1 then do
    let (front, rest) ← splitExactly ((code - 13) / 2) bytes
    match Text.Utf8.decode front with
    | .ok s => return (.text s, rest)
    | .error _ => none
  else do
    let (width, _) ← widths.find? fun (_, c) => c == code
    let (front, rest) ← splitExactly width bytes
    return (.integer (signed front), rest)

/-- Values of given codes. -/
def readValues : List Nat → Bytes → Option (List Value)
  | [], _ => some []
  | code :: codes, bytes => do
    let (v, rest) ← readValue code bytes
    return v :: (← readValues codes rest)

/-- The values of a row. -/
def readRecord (bytes : Bytes) : Option (List Value) := do
  let (size, rest) ← readVarint bytes
  let (codes, body) ← splitExactly (size - (bytes.length - rest.length)) rest
  readValues (← readVarints codes.length codes) body

/-- The values of a cell of a table. -/
def readCell (bytes : Bytes) : Option (List Value) := do
  let (size, rest) ← readVarint bytes
  let (_, rest) ← readVarint rest
  let (payload, _) ← splitExactly size rest
  readRecord payload

/-- The rows of a page of a table. -/
def tableRows (page : Bytes) : Option (List (List Value)) :=
  let count := ofBigEndian ((page.drop 3).take 2)
  (List.range count).mapM fun i =>
    readCell (page.drop (ofBigEndian ((page.drop (8 + 2 * i)).take 2)))

/-- A page of a file, counted from one. -/
def pageAt (number : Nat) (file : Bytes) : Bytes :=
  (file.drop ((number - 1) * pageSize)).take pageSize

end Pages

namespace Store

open Pages

/-- The bundle of a row. -/
def bundleOfValues? : List Value → Option (String × Nat)
  | [.text name, .integer size] => some (name, size.toNat)
  | _ => none

/-- The row of the table of images with given values. -/
def rowOfValues? : List Value → Option Row
  | [.null, pathId, name, kind, width, height, bundle, container] =>
    some ⟨0, pathId, name, kind, width, height, bundle, container⟩
  | _ => none

/-- The database of a file, if it is one that a database is written to. -/
def ofBytes? (file : Bytes) : Option Store := do
  if pageAt 1 file ≠ schemaPage definitions ∧ pageAt 1 file ≠ schemaPage (definitions + 1) then none
  let bundles ← (← tableRows (pageAt 2 file)).mapM bundleOfValues?
  let images ← (← tableRows (pageAt 4 file)).mapM rowOfValues?
  let images := (images.mapIdx fun i r => { r with number := i + 1 }).toArray
  return { bundles := Std.TreeMap.ofList bundles, images := images }

end Store

end CharacterArt.Index
