import CharacterArt.Bundle.Table
import CharacterArt.Index.Record
import CharacterArt.Index.Table
import Std.Data.TreeMap.Basic

/-!
# Index databases

The index keeps two tables: the bundles with their sizes, and the image objects that they hold.

## Main Definitions

* `Row.record?`, `Row.ofRecord` — the record that a row of the table of images holds, and back
* `Index.rowsOf` — the rows for the object table of a bundle
* `Stage`, `Index.Store` — how far a database is set up, and the database
* `Store.missingColumns` — what the table of images lacks

## Design Notes

A database may come from elsewhere, so its table of images is part of its value, and a row may hold
what is no record.
-/

namespace CharacterArt.Index

/-- The columns that a table of images has to have. -/
def imageColumns : List String :=
  ["id", "path_id", "name", "kind", "width", "height", "bundle", "container"]

/-! ### Rows and records -/

/-- The number of an object that a value is, if it is a whole number of 64 bits. -/
def idOf? : Value → Option PathId
  | .integer i => if Value.isShort i then some (Int64.ofInt i) else none
  | _ => none

/-- The text that a value is, if it is one. -/
def textOf? : Value → Option String
  | .text s => some s
  | _ => none

/-- The kind that a value stands for. -/
def kindOf? : Value → Option AssetKind
  | .integer 0 => some .texture
  | .integer 1 => some .sprite
  | _ => none

/-- The number of 32 bits that a value is, if it is one that is not negative. -/
def sizeOf? : Value → Option UInt32
  | .integer n => if 0 ≤ n ∧ n < UInt32.size then some n.toNat.toUInt32 else none
  | _ => none

/-- The record that a row holds, if its fields are of the right kinds and sizes. -/
def Row.record? (r : Row) : Option Record := do
  return {
    pathId := ← idOf? r.pathId
    name := ← textOf? r.name
    kind := ← kindOf? r.kind
    width := ← sizeOf? r.width
    height := ← sizeOf? r.height
    bundle := ← textOf? r.bundle
    container := ← textOf? r.container }

/-- The row of a record, without a number yet. -/
def Row.ofRecord (r : Record) : Row where
  pathId := .integer r.pathId.toInt
  name := .text r.name
  kind := .integer r.kind.tag.toNat
  width := .integer r.width.toNat
  height := .integer r.height.toNat
  bundle := .text r.bundle
  container := .text r.container

/-- The record of an entry in the table of a bundle, if the entry is an image. -/
def recordOf? (bundle : String) (e : Bundle.Entry) : Option Record :=
  e.kind?.map fun kind => {
    pathId := e.pathId
    name := e.name
    kind := kind
    width := e.width
    height := e.height
    bundle := bundle
    container := e.container }

/-- The rows of a bundle with a given table. -/
def rowsOf (bundle : String) (entries : List Bundle.Entry) : List Row :=
  (entries.filterMap (recordOf? bundle)).map Row.ofRecord

/-! ### Databases -/

/-- How far a database is set up. -/
inductive Stage where
  /-- There is no table of bundles. -/
  | images
  /-- There are both tables, but no trees to search them. -/
  | tables
  | complete
  deriving DecidableEq, Repr

/-- An index database. -/
structure Store where
  /-- The table of images. -/
  table : Table := .standard
  /-- The sizes of the indexed bundles. -/
  bundles : Std.TreeMap String Nat := ∅
  /-- The rows of the table of images. -/
  images : Array Row := #[]
  stage : Stage := .complete

namespace Store

/-- The columns that the table of images lacks.  A computed one is as good as missing. -/
def missingColumns (s : Store) : List String :=
  imageColumns.filter fun name => !s.table.columns.any fun c => c.name == name && !c.isComputed

/-- How many bundles are indexed. -/
def bundleCount (s : Store) : Nat :=
  s.bundles.size

/-- How many images are indexed. -/
def imageCount (s : Store) : Nat :=
  s.images.size

/-- Whether a field of a row is equal to a value that is asked for. -/
def isEqual (s : Store) (f : Field) (asked : Value) (r : Row) : Bool :=
  (s.table.affinityOf f).isEqual (s.table.collationOf f) (r.get f) asked

/-- Whether rows refer to indexed bundles alone, where references that may come true later count
only if they are due. -/
def refersWell (s : Store) (isDue : Bool) (rows : Array Row) : Bool :=
  s.table.references.all fun ref =>
    (ref.isDeferred && !isDue) || rows.all fun r =>
      match (s.table.cell r ref.column).toText? with
      | none => true
      | some name => s.bundles.contains name

/-- The order of two rows by a field. -/
def order (s : Store) (f : Field) (a b : Row) : Ordering :=
  (a.get f).compare (s.table.collationOf f) (b.get f)

end Store

end CharacterArt.Index
