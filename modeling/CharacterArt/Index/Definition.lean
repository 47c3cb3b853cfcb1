import CharacterArt.Index.Table

/-!
# Definitions of tables

What a definition says of the columns of a table, and the table that it makes.

## Main Definitions

* `Clause`, `ColumnDefinition`, `Definition` — a definition as it is written
* `Definition.table?` — the table that a definition makes, if it makes one

## Design Notes

A definition is refused if it names a column twice, makes two columns the first key, mentions
columns and orders that there are none of, or computes a column from itself.  A column of numbers of
rows is a single one whose type is the word `INTEGER` and nothing else.
-/

namespace CharacterArt.Index

/-- A column of a key, with an order of its texts if one is asked for. -/
structure KeyPart where
  column : String
  collation : Option String := none
  deriving Repr

/-- What a definition says of a column, or of a table. -/
inductive Clause where
  /-- The first key; the columns are those that are listed, or the column that it is said of. -/
  | primary (parts : List KeyPart) (isDescending : Bool) (conflict : Option Conflict)
      (isCounted : Bool)
  | unique (parts : List KeyPart) (conflict : Option Conflict)
  | condition (e : Expression)
  | required (conflict : Conflict)
  | fallback (e : Expression)
  | computed (e : Expression) (isStored : Bool)
  | collation (name : String)
  /-- The columns hold what columns of a table do, where that may come true later. -/
  | reference (columns : List String) (table : String) (targets : List String) (isDeferred : Bool)
  deriving Repr

/-- What is said of a column. -/
structure ColumnDefinition where
  name : String
  /-- The type as it is written. -/
  type : String
  clauses : List Clause
  deriving Repr

/-- What is said of a table. -/
structure Definition where
  columns : List ColumnDefinition
  clauses : List Clause
  deriving Repr

/-- The order of texts of a name. -/
def Collation.ofName? (name : String) : Option Collation :=
  (([("BINARY", binary), ("NOCASE", noCase), ("RTRIM", trimmed)] : List (String × Collation)).find?
    fun (s, _) => sameName s name).map Prod.snd

namespace ColumnDefinition

/-- What becomes of rows without a value, if they have to have one; what is said last holds. -/
def required? (d : ColumnDefinition) : Option Conflict :=
  d.clauses.reverse.findSome? fun
    | .required conflict => some conflict
    | _ => none

/-- The order of texts that a column is given last, or that of its characters; none if it is given
an order that there is none of. -/
def collation? (d : ColumnDefinition) : Option Collation :=
  d.clauses.foldlM (fun c clause =>
    match clause with
    | .collation name => Collation.ofName? name
    | _ => some c) .binary

/-- What the column holds where rows say nothing of it. -/
def fallbacks (d : ColumnDefinition) : List Expression :=
  d.clauses.filterMap fun
    | .fallback e => some e
    | _ => none

/-- How the column is computed, and whether that is kept. -/
def computations (d : ColumnDefinition) : List (Expression × Bool) :=
  d.clauses.filterMap fun
    | .computed e isStored => some (e, isStored)
    | _ => none

/-- Whether the column belongs to the first key. -/
def isPrimary (d : ColumnDefinition) : Bool :=
  d.clauses.any fun
    | .primary .. => true
    | _ => false

/-- The column that a definition makes.  A computed one has no default and is in no first key. -/
def column? (d : ColumnDefinition) : Option Column := do
  let plain : Column := {
    name := d.name
    affinity := Affinity.ofType d.type
    collation := ← d.collation?
    required := d.required? }
  match d.computations, d.fallbacks with
  | [], fallbacks => return { plain with fallback := fallbacks.getLast?.getD (.value .null) }
  | [(e, isStored)], [] =>
    if d.isPrimary then none
    else return { plain with fallback := e, isComputed := true, isStored := isStored }
  | _, _ => none

end ColumnDefinition

namespace Definition

/-- All clauses; those that speak of columns where one is defined speak of that column. -/
def allClauses (d : Definition) : List Clause :=
  d.columns.flatMap (fun c => c.clauses.map fun
    | .primary _ isDescending conflict isCounted =>
      .primary [⟨c.name, none⟩] isDescending conflict isCounted
    | .unique _ conflict => .unique [⟨c.name, none⟩] conflict
    | .reference _ table targets isDeferred => .reference [c.name] table targets isDeferred
    | clause => clause) ++ d.clauses

/-- A key over columns of a table. -/
def key? (t : Table) (parts : List KeyPart) (conflict : Option Conflict) : Option Key := do
  let parts ← parts.mapM fun p => do
    let c ← t.column? p.column
    match p.collation with
    | none => return (c.name, c.collation)
    | some name => return (c.name, ← Collation.ofName? name)
  return ⟨parts, conflict⟩

/-- A table with one more key.  Of two keys over the same columns one says what becomes of rows. -/
def withKey (t : Table) (k : Key) : Option Table :=
  match t.keys.find? fun old => old.parts == k.parts with
  | none => some { t with keys := t.keys ++ [k] }
  | some old =>
    if old.conflict.isSome && k.conflict.isSome && old.conflict != k.conflict then none
    else
      some { t with keys := t.keys.map fun other =>
        if other.parts == k.parts then { k with conflict := old.conflict.or k.conflict } else other }

/-- Whether a key is a column of numbers of rows. -/
def isNumbers (d : Definition) (parts : List KeyPart) (isDescending : Bool) : Bool :=
  match parts with
  | [p] => !isDescending && d.columns.any fun c => sameName c.name p.column && sameName c.type "INTEGER"
  | _ => false

/-- Whether columns of a table are the names of the bundles. -/
def isBundleName (table : String) (targets : List String) : Bool :=
  sameName table "bundle" &&
    match targets with
    | [] => true
    | [column] => sameName column "name"
    | _ => false

/-- A table for which one more clause holds. -/
def withClause (d : Definition) (t : Table) : Clause → Option Table
  | .primary parts isDescending conflict isCounted => do
    let key ← key? t parts conflict
    if key.parts.any fun (name, _) => (t.column? name).any Column.isComputed then none
    else if d.isNumbers parts isDescending then
      return { t with numbers := key.parts.head?.map fun (name, _) =>
        (name, conflict.getD .refuse) }
    else if isCounted then none
    else withKey t key
  | .unique parts conflict => do withKey t (← key? t parts conflict)
  | .condition e => some { t with conditions := t.conditions ++ [e] }
  | .reference columns table targets isDeferred =>
    if !columns.all fun name => (t.column? name).isSome then none
    else
      match columns, isBundleName table targets with
      | [name], true => some { t with references := t.references ++ [⟨name, isDeferred⟩] }
      | _, _ => some { t with isFixed := true }
  | _ => some t

/-- How many first keys there are. -/
def primaries (d : Definition) : Nat :=
  d.allClauses.countP fun
    | .primary .. => true
    | _ => false

/-- Whether all names are different. -/
def areDistinct : List String → Bool
  | [] => true
  | s :: rest => !rest.any (sameName s) && areDistinct rest

/-- Whether the columns that an expression mentions are there, or are the number of a row. -/
def isKnown (t : Table) (e : Expression) : Bool :=
  e.columns.all fun name => (t.column? name).isSome || Table.isNumberName name

/-- Whether a computed column depends on another column, in `depth` steps at most over columns that
satisfy `p`. -/
def dependsWithin (t : Table) (p : Column → Bool) : (depth : Nat) → (column target : String) → Bool
  | 0, _, _ => false
  | depth + 1, column, target =>
    match t.column? column with
    | none => false
    | some c => c.isComputed && p c && c.fallback.columns.any fun name =>
        sameName name target || dependsWithin t p depth name target

/-- Whether a column depends on itself over columns that satisfy `p`. -/
def isCircular (t : Table) (p : Column → Bool) (c : Column) : Bool :=
  dependsWithin t p t.columns.length c.name c.name

/-- Whether a column can be filled: a default depends on no column, and a computed column on no one
that is missing, nor on itself unless what it holds is kept. -/
def canFill (t : Table) (c : Column) : Bool :=
  if c.isComputed then isKnown t c.fallback && !isCircular t (fun c => !c.isStored) c
  else c.fallback.columns.isEmpty

/-- Whether the expressions of a table mention only what they may, and some column is not
computed. -/
def isSound (t : Table) : Bool :=
  t.conditions.all (isKnown t) && t.columns.all (canFill t) &&
    t.columns.any fun c => !c.isComputed

/-- The table that a definition makes, if it makes one. -/
def table? (d : Definition) : Option Table := do
  let columns ← d.columns.mapM ColumnDefinition.column?
  if !areDistinct (d.columns.map ColumnDefinition.name) || decide (1 < d.primaries) then none
  else
    let t ← d.allClauses.foldlM d.withClause ({ columns := columns } : Table)
    if isSound t then
      some { t with isFixed := t.isFixed || t.columns.any (isCircular t fun _ => true) }
    else none

end Definition

end CharacterArt.Index
