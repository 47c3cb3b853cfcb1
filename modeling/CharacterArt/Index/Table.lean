import CharacterArt.Index.Expression

/-!
# The table of images

## Main Definitions

* `Field`, `Row` — what is known of an image, and a numbered row of the table
* `Column`, `Key`, `Table` — the columns of a table, and what it demands of its rows
* `Table.standard` — the table of a database that was made here
* `Table.cell` — what a column holds in a row
* `Table.insert` — the rows of a table with one more

## Design Notes

The table of a database that was made elsewhere may have other columns and demands than the standard
one.  What its other columns hold follows from their defaults, so a row keeps the seven fields and
its number alone.  The names of columns are the same in letters of either case.  Rows stand in the
order of their numbers.
-/

namespace CharacterArt.Index

/-! ### Rows -/

/-- What is known of an image. -/
inductive Field where
  | pathId
  | name
  | kind
  | width
  | height
  | bundle
  | container
  deriving DecidableEq, Repr

namespace Field

/-- The column of a field. -/
def column : Field → String
  | pathId => "path_id"
  | name => "name"
  | kind => "kind"
  | width => "width"
  | height => "height"
  | bundle => "bundle"
  | container => "container"

/-- All fields. -/
def all : List Field :=
  [pathId, name, kind, width, height, bundle, container]

end Field

/-- A row of the table of images. -/
structure Row where
  /-- The number of the row, which no other row has. -/
  number : Int := 0
  pathId : Value
  name : Value
  kind : Value
  width : Value
  height : Value
  bundle : Value
  container : Value
  deriving Repr

namespace Row

/-- What a field of a row holds. -/
def get (r : Row) : Field → Value
  | .pathId => r.pathId
  | .name => r.name
  | .kind => r.kind
  | .width => r.width
  | .height => r.height
  | .bundle => r.bundle
  | .container => r.container

/-- A row with other fields. -/
def map (f : Field → Value → Value) (r : Row) : Row where
  number := r.number
  pathId := f .pathId r.pathId
  name := f .name r.name
  kind := f .kind r.kind
  width := f .width r.width
  height := f .height r.height
  bundle := f .bundle r.bundle
  container := f .container r.container

end Row

/-! ### Tables -/

/-- What becomes of a row that a demand is against. -/
inductive Conflict where
  /-- Nothing more is inserted. -/
  | refuse
  /-- The row is left out. -/
  | skip
  /-- The rows that are in its way go. -/
  | replace
  deriving DecidableEq, Repr

/-- A column of a table. -/
structure Column where
  name : String
  affinity : Affinity := .blob
  collation : Collation := .binary
  /-- What becomes of rows without a value, if they have to have one. -/
  required : Option Conflict := none
  /-- What the column holds in rows that say nothing of it. -/
  fallback : Expression := .value .null
  /-- Whether no row can say what the column holds. -/
  isComputed : Bool := false
  /-- Whether what is computed is kept with the row. -/
  isStored : Bool := false
  deriving Repr

/-- Columns in which no two rows agree. -/
structure Key where
  parts : List (String × Collation)
  /-- What becomes of a row that agrees with another one, if it is said. -/
  conflict : Option Conflict := none
  deriving Repr

/-- A column that holds the names of bundles that are indexed. -/
structure Reference where
  column : String
  /-- Whether the bundles may follow later. -/
  isDeferred : Bool := false
  deriving Repr

/-- The columns of a table, and what it demands of its rows. -/
structure Table where
  columns : List Column
  /-- The column that holds the numbers of the rows, if there is one, and what becomes of a row whose
  number is taken. -/
  numbers : Option (String × Conflict) := none
  keys : List Key := []
  conditions : List Expression := []
  references : List Reference := []
  /-- Whether no row can be put in, since rows refer to what is in no table or columns depend on each
  other. -/
  isFixed : Bool := false
  deriving Repr

/-- Whether two names are the same in letters of either case. -/
def sameName (s t : String) : Bool :=
  s.map Char.toLower == t.map Char.toLower

/-- The names of the number of a row. -/
def numberNames : List String :=
  ["rowid", "oid", "_rowid_"]

namespace Table

/-- The table of a database that was made here. -/
def standard : Table where
  columns := [
    { name := "id", affinity := .numeric },
    { name := "path_id", affinity := .numeric, required := some .refuse },
    { name := "name", affinity := .text, required := some .refuse },
    { name := "kind", affinity := .numeric, required := some .refuse },
    { name := "width", affinity := .numeric, required := some .refuse },
    { name := "height", affinity := .numeric, required := some .refuse },
    { name := "bundle", affinity := .text, required := some .refuse },
    { name := "container", affinity := .text, required := some .refuse }]
  numbers := some ("id", .refuse)

/-- The column of a name. -/
def column? (t : Table) (name : String) : Option Column :=
  t.columns.find? fun c => sameName c.name name

/-- Whether a column holds the numbers of the rows. -/
def isNumbers (t : Table) (name : String) : Bool :=
  match t.numbers with
  | some (column, _) => sameName column name
  | none => false

/-- Whether a name is that of the numbers of the rows. -/
def isNumberName (name : String) : Bool :=
  numberNames.any (sameName name)

/-- The affinity of a column. -/
def affinity? (t : Table) (name : String) : Option Affinity :=
  match t.column? name with
  | some c => some c.affinity
  | none => if isNumberName name then some .numeric else none

/-- The order of texts of a column. -/
def collation? (t : Table) (name : String) : Option Collation :=
  match t.column? name with
  | some c => some c.collation
  | none => if isNumberName name then some .binary else none

/-- The affinity of the column of a field. -/
def affinityOf (t : Table) (f : Field) : Affinity :=
  (t.affinity? f.column).getD .blob

/-- The order of texts of the column of a field. -/
def collationOf (t : Table) (f : Field) : Collation :=
  (t.collation? f.column).getD .binary

/-- What a column holds in a row, where computed columns depend on others in `depth` steps at
most. -/
def cellWithin (t : Table) (r : Row) : (depth : Nat) → String → Option Value
  | 0, _ => none
  | depth + 1, name =>
    match t.column? name with
    | none => if isNumberName name then some (.integer r.number) else none
    | some c =>
      if t.isNumbers c.name then some (.integer r.number)
      else
        match Field.all.find? fun f => sameName f.column c.name && !c.isComputed with
        | some f => some (r.get f)
        | none =>
          let scope : Scope := ⟨t.cellWithin r depth, t.affinity?, t.collation?⟩
          some (c.affinity.adapt (c.fallback.eval scope))

/-- What a column holds in a row, if there is one of that name. -/
def cell? (t : Table) (r : Row) (name : String) : Option Value :=
  t.cellWithin r (t.columns.length + 1) name

/-- What a column holds in a row. -/
def cell (t : Table) (r : Row) (name : String) : Value :=
  (t.cell? r name).getD .null

/-- The columns of a row, for an expression over them. -/
def scope (t : Table) (r : Row) : Scope where
  value := t.cell? r
  affinity := t.affinity?
  collation := t.collation?

/-! ### Inserting -/

/-- Whether rows can be inserted at all: every field has a column that takes it. -/
def takesRows (t : Table) : Bool :=
  !t.isFixed && Field.all.all fun f =>
    match t.column? f.column with
    | some c => !c.isComputed
    | none => false

/-- The field that holds the numbers of the rows, if one does. -/
def numberField? (t : Table) : Option Field :=
  Field.all.find? fun f => t.isNumbers f.column

/-- A row as the table keeps it. -/
def adapt (t : Table) (r : Row) : Row :=
  r.map fun f v => (t.affinityOf f).adapt v

/-- The number of one more row: what it says itself, or the next one. -/
def numberFor? (t : Table) (rows : Array Row) (r : Row) : Option Int :=
  match t.numberField? with
  | none => some ((rows.back?.map (·.number + 1)).getD 1)
  | some f =>
    match r.get f with
    | .integer i => some i
    | _ => none

/-- The first column in which a row lacks a value that it has to have. -/
def lack? (t : Table) (r : Row) : Option Conflict :=
  t.columns.findSome? fun c =>
    match c.required, t.cell r c.name with
    | some conflict, .null => some conflict
    | _, _ => none

/-- Whether a row meets the conditions of the table. -/
def meets (t : Table) (r : Row) : Bool :=
  t.conditions.all fun e => (e.eval (t.scope r)).truth? != some false

/-- Whether two rows agree in the columns of a key.  Where one holds nothing they do not. -/
def agree (t : Table) (k : Key) (a b : Row) : Bool :=
  k.parts.all fun (name, c) =>
    match t.cell a name, t.cell b name with
    | .null, _ | _, .null => false
    | v, w => v.compare c w == .eq

/-- What becomes of a row that has something in its way, and what that is. -/
abbrev Clash := Conflict × (Row → Bool)

/-- What no other row may have in common with a row.  Of the keys the last comes first. -/
def clashes (t : Table) (r : Row) : List Clash :=
  let numbers := match t.numberField?, t.numbers with
    | some _, some (_, conflict) => [(conflict, fun (s : Row) => s.number == r.number)]
    | _, _ => []
  numbers ++ t.keys.reverse.map fun k => (k.conflict.getD .refuse, t.agree k r)

/-- Rows with room for one more, or without if it is left out.  What is in its way goes last. -/
def makeRoom (rows : Array Row) (clashes : List Clash) : Option (Array Row × Bool) :=
  let met := clashes.filter fun (_, hits) => rows.any hits
  if met.isEmpty then some (rows, true)
  else
    match met.find? fun (conflict, _) => conflict != .replace with
    | some (.skip, _) => some (rows, false)
    | some _ => none
    | none => some (rows.filter fun s => !met.any fun (_, hits) => hits s, true)

/-- Rows with one more, in the order of their numbers. -/
def place (rows : Array Row) (r : Row) : Array Row :=
  match rows.back? with
  | some last =>
    if last.number < r.number then rows.push r
    else (rows.filter (·.number < r.number)).push r ++ rows.filter (r.number < ·.number)
  | none => #[r]

/-- The rows of a table with one more, unless the table is against it. -/
def insert (t : Table) (rows : Array Row) (r : Row) : Option (Array Row) :=
  if !t.takesRows then none
  else do
    let r := t.adapt r
    let r := { r with number := ← t.numberFor? rows r }
    match t.lack? r with
    | some .skip => return rows
    | some _ => none
    | none =>
      if !t.meets r then none
      else
        let (rows, isFree) ← makeRoom rows (t.clashes r)
        return if isFree then place rows r else rows

end Table

end CharacterArt.Index
