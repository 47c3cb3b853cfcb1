import CharacterArt.Index.Store
import CharacterArt.Path

/-!
# Looking things up in an index

## Main Definitions

* `Store.lookup` — the records of one kind of given numbers, asked for in chunks
* `Store.findByName?`, `Store.findById?` — one record, from the first bundle that has it
* `Store.maskTextures` — the textures whose name is that of a mask
* `Store.recordsIn` — the records of a bundle
* `Store.bundlePath` — where an indexed bundle lies

## Design Notes

A row that holds no record makes the whole query fail, but only if the query selects it.  What is
equal and what comes first is for the columns to say.  The pattern for masks looks at a name up to
its first NUL character and folds ASCII letters alone.
-/

namespace CharacterArt.Index

/-- How many numbers one query asks for. -/
def chunkSize : Nat := 1000

/-- A list cut into pieces of `n` items; the last one may be shorter. -/
def chunks {α : Type} (n : Nat) (xs : List α) : List (List α) :=
  if h : n = 0 ∨ xs = [] then []
  else
    have : (xs.drop n).length < xs.length := by
      have hn : 0 < n := Nat.pos_of_ne_zero (not_or.mp h).1
      have hx : 0 < xs.length := List.length_pos_iff.mpr (not_or.mp h).2
      simp only [List.length_drop]
      omega
    xs.take n :: chunks n (xs.drop n)
termination_by xs.length

/-- The records of selected rows. -/
def records (rows : List Row) : Except Error (List Record) :=
  match rows.mapM Row.record? with
  | some rs => .ok rs
  | none => .error (.database "a column holds a value that is out of range")

namespace Store

/-- The rows of one kind. -/
def rowsOfKind (s : Store) (kind : AssetKind) : List Row :=
  s.images.toList.filter (s.isEqual .kind (.integer kind.tag.toNat))

/-- The rows of one kind whose number is among `ids`, in the order of the numbers. -/
def select (s : Store) (kind : AssetKind) (ids : List PathId) : List Row :=
  let affinity := s.table.affinityOf .pathId
  let collation := s.table.collationOf .pathId
  let isAsked (r : Row) : Bool := ids.any fun id =>
    affinity.isEqual collation r.pathId (.integer id.toInt)
  ((s.rowsOfKind kind).filter isAsked).mergeSort fun a b => s.order .pathId a b != .gt

/-- The records of one kind of given numbers.  A record is found once for every chunk of numbers
that holds its own. -/
def lookup (s : Store) (ids : List PathId) (kind : AssetKind) : Except Error (List Record) :=
  records ((chunks chunkSize ids).flatMap (s.select kind))

/-- The record of the first row, by bundle. -/
def firstByBundle (s : Store) (rows : List Row) : Except Error (Option Record) :=
  match (rows.mergeSort fun a b => s.order .bundle a b != .gt).head? with
  | none => .ok none
  | some row => (records [row]).map List.head?

/-- A record of one kind with a given name. -/
def findByName? (s : Store) (name : String) (kind : AssetKind) : Except Error (Option Record) :=
  s.firstByBundle ((s.rowsOfKind kind).filter (s.isEqual .name (.text name)))

/-- A record of one kind with a given number. -/
def findById? (s : Store) (id : PathId) (kind : AssetKind) : Except Error (Option Record) :=
  s.firstByBundle ((s.rowsOfKind kind).filter (s.isEqual .pathId (.integer id.toInt)))

/-- Whether a name matches the pattern for masks. -/
def matchesMask (name : Value) : Bool :=
  match name with
  | .text name =>
    let cs := (name.toList.takeWhile (· != '\x00')).map Char.toLower
    Alpha.marker.isSuffixOf cs
  | _ => false

/-- The textures whose name matches the pattern for masks, by name and bundle. -/
def maskTextures (s : Store) : Except Error (List Record) :=
  records (((s.rowsOfKind .texture).filter fun r => matchesMask r.name).mergeSort fun a b =>
    (s.order .name a b).then (s.order .bundle a b) != .gt)

/-- The records of a bundle, by number and kind. -/
def recordsIn (s : Store) (bundle : String) : Except Error (List Record) :=
  records ((s.images.toList.filter (s.isEqual .bundle (.text bundle))).mergeSort fun a b =>
    (s.order .pathId a b).then (s.order .kind a b) != .gt)

/-- The extension of bundle files. -/
def bundleExtension : String := "ab"

/-- Where an indexed bundle lies in the directory of the bundles. -/
def bundlePath (s : Store) (directory bundle : String) : Except Error String :=
  if s.bundles.contains bundle then .ok (Path.join directory (bundle ++ "." ++ bundleExtension))
  else .error (.bundleNotIndexed bundle)

end Store

end CharacterArt.Index
