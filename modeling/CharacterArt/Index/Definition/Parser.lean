import CharacterArt.Index.Definition
import CharacterArt.Index.Definition.Token

/-!
# Reading definitions of tables

## Main Definitions

* `Phrase` — readers of the front of a list of tokens
* `Phrase.expression` — an expression
* `Definition.parse?` — the definition of a table, from those of its columns
* `Table.ofDefinitions?` — the table that they make

## Design Notes

The grammar is that of SQLite, of whose expressions those are read that compare and compute numbers
and texts.  Operators bind by their level; all are taken from the left, except that the lower bound
of `BETWEEN` reaches up to its `AND`.  Nesting is bounded by the number of tokens.
-/

namespace CharacterArt.Index

/-- A reader of the front of a list of tokens. -/
abbrev Phrase := StateT (List Token) Option

namespace Phrase

/-! ### Words, marks and names -/

/-- Whether words come next; if so, they are taken. -/
def words (ss : List String) : Phrase Bool := do
  let ts ← get
  let front := ts.take ss.length
  if front.length = ss.length && (front.zip ss).all (fun (t, s) => t.isWord s) then
    set (ts.drop ss.length)
    return true
  else return false

/-- Whether a mark comes next; if so, it is taken. -/
def mark (m : String) : Phrase Bool := do
  match ← get with
  | t :: rest => if t.isMark m then set rest; return true else return false
  | [] => return false

/-- Take words that have to come next. -/
def demandWords (ss : List String) : Phrase Unit := do
  if !(← words ss) then failure

/-- Take a mark that has to come next. -/
def demandMark (m : String) : Phrase Unit := do
  if !(← mark m) then failure

/-- The first alternative that comes next, if one does. -/
def choice? {α : Type} (alternatives : List (List String × α)) : Phrase (Option α) :=
  alternatives.foldlM (fun found (ss, a) => do
    match found with
    | some b => return some b
    | none => if ← words ss then return some a else return none) none

/-- The first alternative that comes next. -/
def choice {α : Type} (alternatives : List (List String × α)) : Phrase α := do
  match ← choice? alternatives with
  | some a => return a
  | none => failure

/-- A name. -/
def name : Phrase String := do
  match ← get with
  | .word s :: rest => if Token.isReserved s then failure else set rest; return s
  | .quoted s _ :: rest | .text s :: rest => set rest; return s
  | _ => failure

/-- At most `rounds` items with a comma between them. -/
def listUpTo {α : Type} (item : Phrase α) : (rounds : Nat) → Phrase (List α)
  | 0 => failure
  | rounds + 1 => do
    let a ← item
    if ← mark "," then return a :: (← listUpTo item rounds) else return [a]

/-- Items with a comma between them. -/
def list {α : Type} (item : Phrase α) : Phrase (List α) := do
  listUpTo item ((← get).length + 1)

/-- Items with a comma between them, in brackets. -/
def inBrackets {α : Type} (item : Phrase α) : Phrase (List α) := do
  demandMark "("
  let items ← list item
  demandMark ")"
  return items

/-! ### Expressions -/

/-- What an operator makes of its sides. -/
abbrev Joining := Expression → Expression → Expression

/-- The operators between two expressions, with their levels. -/
def operators : List (String × Nat × Joining) := [
  ("OR", 1, .either), ("AND", 2, .both),
  ("=", 4, .compared .equal), ("==", 4, .compared .equal), ("<>", 4, .compared .unequal),
  ("!=", 4, .compared .unequal), ("<", 5, .compared .less), ("<=", 5, .compared .atMost),
  (">", 5, .compared .greater), (">=", 5, .compared .atLeast), ("+", 7, .combined .sum),
  ("-", 7, .combined .difference), ("*", 8, .combined .product), ("/", 8, .combined .quotient),
  ("%", 8, .combined .remainder), ("||", 9, .combined .joined)]

/-- The operator that comes next, with its level. -/
def operatorOf? (t : Token) : Option (Nat × Joining) :=
  (operators.find? fun (s, _) => t.isWord s || t.isMark s).map Prod.snd

/-- The functions of one value. -/
def functions : List (String × Operation) := [
  ("LENGTH", .length), ("LOWER", .lower), ("UPPER", .upper), ("TYPEOF", .typeName),
  ("ABS", .magnitude)]

/-- A function of values. -/
def call? (f : String) (args : List Expression) : Option Expression :=
  match args with
  | [e] => (functions.find? fun (s, _) => sameName s f).map fun (_, f) => .operated f e
  | [a, b] =>
    if sameName f "IFNULL" || sameName f "COALESCE" then some (.combined .orElse a b) else none
  | _ => none

/-- A word as an expression: a value of its own, or a column. -/
def ofWord (s : String) : Expression :=
  if sameName s "TRUE" then .value (.integer 1)
  else if sameName s "FALSE" then .value (.integer 0)
  else .column s

/-- The opposite of a condition, if it is asked for. -/
def oppositeIf (isOpposite : Bool) (e : Expression) : Expression :=
  if isOpposite then .operated .opposite e else e

/-- Whether an expression is one of several. -/
def isAmong (e : Expression) (items : List Expression) : Expression :=
  items.foldr (fun a rest => .either (.compared .equal e (.plain a)) rest) (.value (.integer 0))

mutual

/-- An expression without operators between its parts, within `depth` steps. -/
def operand : (depth : Nat) → Phrase Expression
  | 0 => failure
  | depth + 1 => do
    if ← words ["NOT"] then return .operated .opposite (← climb depth 4)
    else if ← words ["NULL"] then return .value .null
    else if ← mark "-" then return .operated .negative (← operand depth)
    else if ← mark "+" then return .plain (← operand depth)
    else if ← mark "(" then
      let e ← climb depth 1
      demandMark ")"
      return e
    else
      match ← get with
      | .number v :: rest => set rest; return .value v
      | .text s :: rest => set rest; return .value (.text s)
      | .quoted s true :: rest => set rest; return .quoted s
      | .quoted s false :: rest => set rest; return .column s
      | .word s :: rest =>
        if Token.isReserved s then failure
        set rest
        if ← mark "(" then
          let args ← expressions depth
          demandMark ")"
          match call? s args with
          | some e => return e
          | none => failure
        else if ← mark "." then return .column (← name)
        else return ofWord s
      | _ => failure

/-- An expression whose operators have at least a level, within `depth` steps. -/
def climb : (depth : Nat) → (level : Nat) → Phrase Expression
  | 0, _ => failure
  | depth + 1, level => do extend depth level (← operand depth)

/-- What operators of at least a level make of an expression to their left, within `depth` steps. -/
def extend : (depth : Nat) → (level : Nat) → Expression → Phrase Expression
  | 0, _, _ => failure
  | depth + 1, level, e => do
    if ← words ["COLLATE"] then
      match Collation.ofName? (← name) with
      | some c => extend depth level (.collated e c)
      | none => failure
    else
      match (← get).head?.bind operatorOf? with
      | some (n, join) =>
        if n < level then return e
        else
          modify (·.drop 1)
          extend depth level (join e (← climb depth (n + 1)))
      | none =>
        if 4 < level then return e
        else if ← words ["ISNULL"] then extend depth level (.operated .isNothing e)
        else if ← words ["NOTNULL"] then
          extend depth level (.operated .opposite (.operated .isNothing e))
        else if ← words ["NOT", "NULL"] then
          extend depth level (.operated .opposite (.operated .isNothing e))
        else if ← words ["IS"] then
          let isOpposite ← words ["NOT"]
          extend depth level (oppositeIf isOpposite (.same e (← climb depth 5)))
        else
          let isOpposite ← words ["NOT"]
          if ← words ["LIKE"] then
            extend depth level (oppositeIf isOpposite (.combined .isLike e (← climb depth 5)))
          else if ← words ["BETWEEN"] then
            let low ← climb depth 3
            demandWords ["AND"]
            let high ← climb depth 5
            extend depth level
              (oppositeIf isOpposite (.both (.compared .atLeast e low) (.compared .atMost e high)))
          else if ← words ["IN"] then
            demandMark "("
            let items ← if ← mark ")" then pure [] else do
              let items ← expressions depth
              demandMark ")"
              pure items
            extend depth level (oppositeIf isOpposite (isAmong e items))
          else if isOpposite then failure
          else return e

/-- Expressions with a comma between them, within `depth` steps. -/
def expressions : (depth : Nat) → Phrase (List Expression)
  | 0 => failure
  | depth + 1 => do
    let e ← climb depth 1
    if ← mark "," then return e :: (← expressions depth) else return [e]

end

/-- An expression. -/
def expression : Phrase Expression := do
  climb (4 * (← get).length + 4) 1

/-! ### Clauses -/

/-- What becomes of a row that a clause is against, if it is said. -/
def conflict? : Phrase (Option Conflict) := do
  if ← words ["ON", "CONFLICT"] then
    some <$> choice [(["ROLLBACK"], .refuse), (["ABORT"], .refuse), (["FAIL"], .refuse),
      (["IGNORE"], .skip), (["REPLACE"], .replace)]
  else return none

/-- Whether an order is a falling one. -/
def isDescending : Phrase Bool := do
  return (← choice? [(["ASC"], false), (["DESC"], true)]).getD false

/-- A column of a key. -/
def keyPart : Phrase KeyPart := do
  let column ← name
  let collation ← if ← words ["COLLATE"] then some <$> name else pure none
  let _ ← isDescending
  return ⟨column, collation⟩

/-- What follows a reference to another table: its columns, and what is done if it changes. -/
def referenceTail : (rounds : Nat) → Phrase Unit
  | 0 => failure
  | rounds + 1 => do
    if ← words ["MATCH"] then
      let _ ← name
      referenceTail rounds
    else if ← words ["ON"] then
      choice [(["DELETE"], ()), (["UPDATE"], ()), (["INSERT"], ())]
      choice [(["SET", "NULL"], ()), (["SET", "DEFAULT"], ()), (["CASCADE"], ()), (["RESTRICT"], ()),
        (["NO", "ACTION"], ())]
      referenceTail rounds
    else return ()

/-- Whether references may come true later, if that is said. -/
def deferral? : Phrase (Option Bool) := do
  let initially : Phrase Bool := do
    return (← choice? [(["INITIALLY", "DEFERRED"], true), (["INITIALLY", "IMMEDIATE"], false)]).getD
      false
  if ← words ["NOT", "DEFERRABLE"] then
    let _ ← initially
    return some false
  else if ← words ["DEFERRABLE"] then return some (← initially)
  else return none

/-- A reference from columns to another table. -/
def reference (columns : List String) : Phrase Clause := do
  let table ← name
  let targets ← if ((← get).head?.map (·.isMark "(")).getD false then inBrackets name else pure []
  referenceTail (← get).length.succ
  return .reference columns table targets ((← deferral?).getD false)

/-- A default. -/
def fallback : Phrase Expression := do
  if ← mark "(" then
    let e ← expression
    demandMark ")"
    return e
  else if ← words ["NULL"] then return .value .null
  else
    let isNegative ← mark "-"
    let isPositive ← if isNegative then pure false else mark "+"
    match ← get with
    | .number v :: rest =>
      set rest
      return if isNegative then .operated .negative (.value v) else .value v
    | .text s :: rest =>
      set rest
      return if isNegative then .operated .negative (.value (.text s)) else .value (.text s)
    | _ =>
      if isNegative || isPositive then failure
      match ofWord (← name) with
      | .column s => return .value (.text s)
      | e => return e

/-- How a column is computed. -/
def computation : Phrase Clause := do
  demandMark "("
  let e ← expression
  demandMark ")"
  return .computed e ((← choice? [(["STORED"], true), (["VIRTUAL"], false)]).getD false)

/-- A clause about a column.  Some say nothing that matters. -/
def columnClause : Phrase (List Clause) := do
  if ← words ["CONSTRAINT"] then
    let _ ← name
    return []
  else if ← words ["DEFAULT"] then return [.fallback (← fallback)]
  else if ← words ["NULL"] then
    let _ ← conflict?
    return []
  else if ← words ["NOT", "NULL"] then return [.required ((← conflict?).getD .refuse)]
  else if ← words ["PRIMARY", "KEY"] then
    let falling ← isDescending
    let c ← conflict?
    return [.primary [] falling c (← words ["AUTOINCREMENT"])]
  else if ← words ["UNIQUE"] then return [.unique [] (← conflict?)]
  else if ← words ["CHECK"] then
    demandMark "("
    let e ← expression
    demandMark ")"
    return [.condition e]
  else if ← words ["REFERENCES"] then return [← reference []]
  else if ← words ["COLLATE"] then return [.collation (← name)]
  else if ← words ["GENERATED", "ALWAYS", "AS"] then return [← computation]
  else if ← words ["AS"] then return [← computation]
  else if (← deferral?).isSome then return []
  else failure

/-- A clause about the table. -/
def tableClause : Phrase (List Clause) := do
  if ← words ["CONSTRAINT"] then
    let _ ← name
    return []
  else if ← words ["PRIMARY", "KEY"] then
    demandMark "("
    let parts ← list keyPart
    let isCounted ← words ["AUTOINCREMENT"]
    demandMark ")"
    return [.primary parts false (← conflict?) isCounted]
  else if ← words ["UNIQUE"] then
    let parts ← inBrackets keyPart
    return [.unique parts (← conflict?)]
  else if ← words ["CHECK"] then
    demandMark "("
    let e ← expression
    demandMark ")"
    let _ ← conflict?
    return [.condition e]
  else
    demandWords ["FOREIGN", "KEY"]
    let columns ← inBrackets name
    demandWords ["REFERENCES"]
    return [← reference columns]

/-! ### Columns and tables -/

/-- A number with or without a sign. -/
def signedNumber : Phrase String := do
  let isNegative ← mark "-"
  if !isNegative then
    let _ ← mark "+"
  match ← get with
  | .number v :: rest => set rest; return (if isNegative then "-" else "") ++ v.toText?.getD ""
  | _ => failure

/-- The words of a type, at most `rounds` of them. -/
def typeWords : (rounds : Nat) → Phrase (List String)
  | 0 => return []
  | rounds + 1 => do
    match ← get with
    | .word s :: rest =>
      if Token.isReserved s || Token.untyped.contains (s.map Char.toUpper) ||
          (sameName s "GENERATED" && (rest.head?.map (·.isWord "ALWAYS")).getD false) then
        return []
      set rest
      return s :: (← typeWords rounds)
    | .quoted s _ :: rest | .text s :: rest =>
      set rest
      return s :: (← typeWords rounds)
    | _ => return []

/-- The type of a column, as it is written. -/
def columnType : Phrase String := do
  let ws ← typeWords (← get).length
  if ws.isEmpty then return ""
  let size ← if ((← get).head?.map (·.isMark "(")).getD false then inBrackets signedNumber else pure []
  if 2 < size.length then failure
  return " ".intercalate ws ++ (if size.isEmpty then "" else "(" ++ ",".intercalate size ++ ")")

/-- Clauses about a column, at most `rounds` of them. -/
def columnClauses : (rounds : Nat) → Phrase (List Clause)
  | 0 => failure
  | rounds + 1 => do
    match (← get).head? with
    | some t =>
      if t.isMark "," || t.isMark ")" then return []
      else
        let clauses ← columnClause
        return clauses ++ (← columnClauses rounds)
    | none => failure

/-- What is said of a column. -/
def columnDefinition : Phrase ColumnDefinition := do
  let columnName ← name
  let type ← columnType
  return ⟨columnName, type, ← columnClauses (← get).length.succ⟩

/-- Clauses about the table up to its end, at most `rounds` of them. -/
def tableClauses : (rounds : Nat) → Phrase (List Clause)
  | 0 => failure
  | rounds + 1 => do
    let clauses ← tableClause
    if ← mark ")" then return clauses
    else
      let _ ← mark ","
      return clauses ++ (← tableClauses rounds)

/-- The words that begin a clause about the table. -/
def tableWords : List String :=
  ["CONSTRAINT", "PRIMARY", "UNIQUE", "CHECK", "FOREIGN"]

/-- What is said of a table, up to a closing bracket, in at most `rounds` columns. -/
def definition : (rounds : Nat) → Phrase Definition
  | 0 => failure
  | rounds + 1 => do
    let column ← columnDefinition
    if ← mark ")" then return ⟨[column], []⟩
    else
      demandMark ","
      match (← get).head? with
      | some t =>
        if tableWords.any t.isWord then
          return ⟨[column], ← tableClauses (← get).length⟩
        else
          let rest ← definition rounds
          return ⟨column :: rest.columns, rest.clauses⟩
      | none => failure

end Phrase

/-- The definition of a table, from those of its columns. -/
def Definition.parse? (columns : List String) : Option Definition := do
  let tokens ← Token.scan (", ".intercalate columns ++ ")")
  let (d, rest) ← Phrase.definition tokens.length tokens
  if rest.all (·.isMark ";") then some d else none

/-- The table that definitions of its columns make, if they make one. -/
def Table.ofDefinitions? (columns : List String) : Option Table := do
  (← Definition.parse? columns).table?

end CharacterArt.Index
