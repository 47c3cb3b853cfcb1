import CharacterArt.Index.Store

/-!
# Index databases as files

An index database is a file of pages in the SQLite format: a page that lists the tables, and one
page for each table and each of its search trees.

## Main Definitions

* `record` — a row as bytes
* `Page` — a page of rows
* `Store.toBytes` — the file of a database

## Design Notes

Cells fill a page from its end towards its front, in the order in which they are written, while
their places stand at the front in the order of their keys.  Every page is the only one of its
tree, so of a larger database the pages hold the rows that fit.
-/

namespace CharacterArt.Index

open Text (Bytes)

namespace Pages

/-- The `width` low bytes of a number, most significant first. -/
def bigEndian (width n : Nat) : Bytes :=
  (Binary.littleEndian width n).reverse

/-- A number in groups of seven bits, each with the high bit set. -/
def groups (n : Nat) : Bytes :=
  if n = 0 then [] else groups (n / 128) ++ [(n % 128).toUInt8 ||| 0x80]

/-- A number of any size: groups of seven bits, and the last one without the high bit. -/
def varint (n : Nat) : Bytes :=
  groups (n / 128) ++ [(n % 128).toUInt8]

/-! ### Rows -/

/-- The widths in which numbers are stored, with their codes. -/
def widths : List (Nat × Nat) :=
  [(1, 1), (2, 2), (3, 3), (4, 4), (6, 5), (8, 6)]

/-- The least width that holds a number, with its code. -/
def widthOf (i : Int) : Nat × Nat :=
  let fits (width : Nat) : Bool :=
    let bound : Int := (1 <<< (8 * width - 1) : Nat)
    decide (-bound ≤ i) && decide (i < bound)
  (widths.find? fun (width, _) => fits width).getD (8, 6)

/-- The code of a value, and its bytes. -/
def encodeValue : Value → Nat × Bytes
  | .null => (0, [])
  | .integer 0 => (8, [])
  | .integer 1 => (9, [])
  | .integer i =>
    let (width, code) := widthOf i
    (code, bigEndian width (i % (1 <<< (8 * width) : Nat)).toNat)
  | .real x => (7, bigEndian 8 x.toBits.toNat)
  | .text s =>
    let bytes := Text.Utf8.encode s
    (13 + 2 * bytes.length, bytes)

/-- A row as bytes: the codes of its values, and the values. -/
def record (values : List Value) : Bytes :=
  let parts := values.map encodeValue
  let codes := parts.flatMap fun (code, _) => varint code
  varint (codes.length + 1) ++ codes ++ parts.flatMap Prod.snd

/-- A row of a table. -/
def tableCell (number : Nat) (values : List Value) : Bytes :=
  let payload := record values
  varint payload.length ++ varint number ++ payload

/-- A row of a search tree. -/
def treeCell (values : List Value) : Bytes :=
  let payload := record values
  varint payload.length ++ payload

/-! ### Pages -/

/-- The number of bytes of a page. -/
def pageSize : Nat := 4096

/-- The kind of a page of rows. -/
def tablePage : UInt8 := 0x0D

/-- The kind of a page of a search tree. -/
def treePage : UInt8 := 0x0A

/-- The cells that fit into a page, with the two bytes that tell the place of each. -/
def fitting (space : Nat) : List Bytes → List Bytes
  | [] => []
  | cell :: rest =>
    if cell.length + 2 ≤ space then cell :: fitting (space - cell.length - 2) rest else []

/-- The places of cells that fill a page downwards from `top`. -/
def placesFrom (top : Nat) : List Bytes → List Nat
  | [] => []
  | cell :: rest => (top - cell.length) :: placesFrom (top - cell.length) rest

/-- A page: what stands before its header, its kind, its cells in the order in which they are
written, the order of their keys, and the free bytes behind the cells. -/
def page (front : Bytes) (kind : UInt8) (cells : List Bytes) (order : List Nat → List Nat)
    (free : Bytes) : Bytes :=
  let cells := fitting (pageSize - front.length - 8 - free.length) cells
  let top := pageSize - free.length
  let places := placesFrom top cells
  let start := places.getLast?.getD top
  let header := kind :: (bigEndian 2 (if free.isEmpty then 0 else top) ++
    bigEndian 2 cells.length ++ bigEndian 2 start ++ [0])
  let pointers := (order places).flatMap (bigEndian 2)
  let used := front.length + header.length + pointers.length
  front ++ header ++ pointers ++ List.replicate (start - used) 0 ++ cells.reverse.flatten ++ free

/-- A page of a table with the given rows. -/
def pageOfTable (rows : List (List Value)) : Bytes :=
  page [] tablePage (rows.mapIdx fun i values => tableCell (i + 1) values) id []

/-- A page of the tree that finds rows by one of their values. -/
def pageOfTree (keys : List Value) : Bytes :=
  let numbered := keys.mapIdx fun i key => (key, i)
  let cells := numbered.map fun (key, i) => treeCell [key, .integer (i + 1)]
  let sorted := numbered.mergeSort fun a b => a.1.compare .binary b.1 != .gt
  page [] treePage cells (fun places => sorted.filterMap fun (_, i) => places[i]?) []

/-! ### The list of tables -/

/-- What is said of a table or a tree when it is made: its kind, its name, the name of its table,
its page, and its definition. -/
def schemaRow (kind name table : String) (page : Nat) (definition : Value) : List Value :=
  [.text kind, .text name, .text table, .integer page, definition]

/-- The definition of the table of bundles. -/
def bundleDefinition : String :=
  "CREATE TABLE bundle (\n                name    TEXT PRIMARY KEY,\n" ++
    "                size    INTEGER NOT NULL\n            )"

/-- The definition of the table of images. -/
def imageDefinition : String :=
  "CREATE TABLE image (\n                id          INTEGER PRIMARY KEY,\n" ++
    "                path_id     INTEGER NOT NULL,\n" ++
    "                name        TEXT NOT NULL,\n" ++
    "                kind        INTEGER NOT NULL,\n" ++
    "                width       INTEGER NOT NULL,\n" ++
    "                height      INTEGER NOT NULL,\n" ++
    "                bundle      TEXT NOT NULL,\n" ++
    "                container   TEXT NOT NULL\n            )"

/-- The definition of a tree over the table of images. -/
def treeDefinition (column : String) : String :=
  "CREATE INDEX idx_image_" ++ column ++ " ON image (" ++ column ++ ")"

/-- The row of a tree over the table of images. -/
def treeRow (number page : Nat) (column : String) : Bytes :=
  tableCell number
    (schemaRow "index" ("idx_image_" ++ column) "image" page (.text (treeDefinition column)))

/-- The rows of the list in the order in which they are written.  The tree of a table is written
before the row of the table is complete. -/
def schemaCells : List Bytes := [
  tableCell 2 (schemaRow "index" "sqlite_autoindex_bundle_1" "bundle" 3 .null),
  tableCell 1 (schemaRow "table" "bundle" "bundle" 2 (.text bundleDefinition)),
  tableCell 3 (schemaRow "table" "image" "image" 4 (.text imageDefinition)),
  treeRow 4 5 "path_id",
  treeRow 5 6 "bundle",
  treeRow 6 7 "name"]

/-- The places of the rows of the list in the order of their numbers. -/
def schemaOrder : List Nat → List Nat
  | second :: first :: rest => first :: second :: rest
  | places => places

/-- The bytes that the list gave up: where the next free bytes are, and how many there are. -/
def schemaFree : Bytes := [0, 0, 0, 8, 0, 0, 0, 0]

/-- How many times the tables and trees were changed when they were made. -/
def definitions : Nat := 5

/-- The number of pages of a file. -/
def pageCount : Nat := 7

/-- The front of a file that was changed a number of times. -/
def fileHeader (changes : Nat) : Bytes :=
  Text.Utf8.encode "SQLite format 3\x00" ++ bigEndian 2 pageSize ++ [1, 1, 0, 64, 32, 32] ++
    bigEndian 4 changes ++ bigEndian 4 pageCount ++ bigEndian 4 0 ++ bigEndian 4 0 ++
    bigEndian 4 definitions ++ bigEndian 4 4 ++ bigEndian 4 0 ++ bigEndian 4 0 ++ bigEndian 4 1 ++
    List.replicate 32 0 ++ bigEndian 4 changes ++ bigEndian 4 3046000

/-- The page that lists the tables, in a file that was changed a number of times. -/
def schemaPage (changes : Nat) : Bytes :=
  page (fileHeader changes) tablePage schemaCells schemaOrder schemaFree

end Pages

namespace Store

open Pages

/-- The values of a row of the table of images.  The number of a row is not stored twice. -/
def valuesOf (r : Row) : List Value :=
  .null :: Field.all.map r.get

/-- The file of a database that was filled at once. -/
def toBytes (s : Store) : Bytes :=
  let bundles := s.bundles.toList
  let images := s.images.toList
  let changes := if bundles.isEmpty && images.isEmpty then definitions else definitions + 1
  schemaPage changes ++
    pageOfTable (bundles.map fun (name, size) => [.text name, .integer size]) ++
    pageOfTree (bundles.map fun (name, _) => .text name) ++
    pageOfTable (images.map valuesOf) ++
    pageOfTree (images.map Row.pathId) ++
    pageOfTree (images.map Row.bundle) ++
    pageOfTree (images.map Row.name)

end Store

end CharacterArt.Index
