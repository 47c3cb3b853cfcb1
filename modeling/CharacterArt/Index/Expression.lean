import CharacterArt.Index.Value

/-!
# Expressions over columns

The conditions, defaults and computed columns of a table are expressions over the cells of a row.

## Main Definitions

* `Expression` — expressions over columns
* `Scope` — what the columns hold, and how they compare
* `Expression.eval` — the value of an expression
* `Expression.columns` — the columns that an expression has to have

## Design Notes

Logic has three truth values: the value of a condition may be nothing, which forbids nothing.  What
two values are compared as depends on the expressions they come from: a column of numbers makes a
number of a text beside it, and brings along its order of texts.
-/

namespace CharacterArt.Index

/-- What is asked of two values. -/
inductive Comparison where
  | equal
  | unequal
  | less
  | atMost
  | greater
  | atLeast
  deriving DecidableEq, Repr

/-- Whether an order is of the kind that is asked for. -/
def Comparison.holds : Comparison → Ordering → Bool
  | equal, o => o == .eq
  | unequal, o => o != .eq
  | less, o => o == .lt
  | atMost, o => o != .gt
  | greater, o => o == .gt
  | atLeast, o => o != .lt

/-- What is made of one value. -/
inductive Operation where
  | negative
  | opposite
  | isNothing
  | length
  | lower
  | upper
  | typeName
  | magnitude
  deriving DecidableEq, Repr

/-- What is made of two values. -/
inductive Combination where
  | sum
  | difference
  | product
  | quotient
  | remainder
  | joined
  /-- Whether a text has a form, in which `%` stands for any text and `_` for any character. -/
  | isLike
  /-- The first value, or the second where that is nothing. -/
  | orElse
  deriving DecidableEq, Repr

/-- An expression over the columns of a table. -/
inductive Expression where
  | value (v : Value)
  | column (name : String)
  /-- A column, or a text where there is no column of that name. -/
  | quoted (name : String)
  /-- An expression whose texts are compared by an order of its own. -/
  | collated (e : Expression) (c : Collation)
  /-- An expression that is no column any more, whatever it was. -/
  | plain (e : Expression)
  | operated (f : Operation) (e : Expression)
  | combined (f : Combination) (a b : Expression)
  | compared (c : Comparison) (a b : Expression)
  /-- Whether two values are the same, as nothing and nothing are. -/
  | same (a b : Expression)
  | both (a b : Expression)
  | either (a b : Expression)
  deriving Repr, Inhabited

/-! ### Operations on values -/

/-- A whole number, unless it takes more than 64 bits. -/
def Value.ofInt (i : Int) : Value :=
  if isShort i then integer i else real (Float.ofInt i)

/-- A number as a real one. -/
def Value.toFloat : Value → Float
  | integer i => Float.ofInt i
  | real x => x
  | _ => 0

/-- A number without its fraction. -/
def Value.toInt : Value → Int
  | integer i => i
  | real x => x.toInt64.toInt
  | _ => 0

/-- The name of the kind of a value. -/
def Value.typeName : Value → String
  | null => "null"
  | integer _ => "integer"
  | real _ => "real"
  | text _ => "text"

/-- The value of an operation. -/
def Operation.apply (f : Operation) (v : Value) : Value :=
  match f, v with
  | isNothing, v => .ofTruth (some (match v with | .null => true | _ => false))
  | typeName, v => .text v.typeName
  | _, .null => .null
  | opposite, v => .ofTruth (v.truth?.map not)
  | negative, v =>
    match v.toNumber with
    | .integer i => .ofInt (-i)
    | n => .real (-n.toFloat)
  | magnitude, v =>
    match v with
    | .integer i => .ofInt i.natAbs
    | v => .real v.toNumber.toFloat.abs
  | length, v =>
    .integer ((v.toText?.getD "").toList.takeWhile (· != '\x00')).length
  | lower, v => .text ((v.toText?.getD "").map Char.toLower)
  | upper, v => .text ((v.toText?.getD "").map Char.toUpper)

/-- A sum, a difference or a product. -/
def arithmetic (f : Int → Int → Int) (g : Float → Float → Float) (v w : Value) : Value :=
  match v.toNumber, w.toNumber with
  | .integer i, .integer j =>
    if Value.isShort (f i j) then .integer (f i j) else .real (g (Float.ofInt i) (Float.ofInt j))
  | v, w => .real (g v.toFloat w.toFloat)

/-- A quotient, which is whole if both numbers are. -/
def divide (v w : Value) : Value :=
  match v.toNumber, w.toNumber with
  | .integer i, .integer j => if j = 0 then .null else .ofInt (i.tdiv j)
  | v, w => if w.toFloat == 0 then .null else .real (v.toFloat / w.toFloat)

/-- What a division of whole numbers leaves. -/
def remainder (v w : Value) : Value :=
  match v.toNumber, w.toNumber with
  | .integer i, .integer j => if j = 0 then .null else .integer (i.tmod j)
  | v, w => if w.toInt = 0 then .null else .real (Float.ofInt (v.toInt.tmod w.toInt))

/-- Whether a text has a form, in which `%` stands for any text and `_` for any character, and Latin
letters of either case are the same. -/
def isLike : (form text : List Char) → Bool
  | [], text => text.isEmpty
  | '%' :: form, [] => isLike form []
  | '%' :: form, c :: text => isLike form (c :: text) || isLike ('%' :: form) text
  | _ :: _, [] => false
  | '_' :: form, _ :: text => isLike form text
  | f :: form, c :: text => f.toLower == c.toLower && isLike form text
termination_by form text => form.length + text.length

/-- The value of a combination. -/
def Combination.apply (f : Combination) (v w : Value) : Value :=
  match f, v, w with
  | orElse, .null, w => w
  | orElse, v, _ => v
  | _, .null, _ | _, _, .null => .null
  | sum, v, w => arithmetic (· + ·) (· + ·) v w
  | difference, v, w => arithmetic (· - ·) (· - ·) v w
  | product, v, w => arithmetic (· * ·) (· * ·) v w
  | quotient, v, w => divide v w
  | remainder, v, w => Index.remainder v w
  | joined, v, w => .text (v.toText?.getD "" ++ w.toText?.getD "")
  | isLike, v, w =>
    .ofTruth (some (Index.isLike (w.toText?.getD "").toList (v.toText?.getD "").toList))

/-! ### Evaluation -/

/-- What columns hold in a row, and how they compare. -/
structure Scope where
  value : String → Option Value
  affinity : String → Option Affinity
  collation : String → Option Collation

namespace Expression

/-- The affinity of an expression, which only columns have. -/
def affinity? (s : Scope) : Expression → Option Affinity
  | column name | quoted name => s.affinity name
  | collated e _ => e.affinity? s
  | _ => none

/-- The order of texts that an expression brings along, and whether it was asked for by name. -/
def collation? (s : Scope) : Expression → Option (Bool × Collation)
  | column name | quoted name => (s.collation name).map (false, ·)
  | collated _ c => some (true, c)
  | plain e => e.collation? s
  | _ => none

/-- The order of texts in a comparison: one that is asked for comes before that of a column, and
the left side before the right one. -/
def commonCollation (s : Scope) (a b : Expression) : Collation :=
  match a.collation? s, b.collation? s with
  | some (true, c), _ => c
  | _, some (true, c) => c
  | some (_, c), _ => c
  | none, some (_, c) => c
  | none, none => .binary

/-- Whether an affinity is one of numbers. -/
def isNumeric : Affinity → Bool
  | .numeric | .real => true
  | _ => false

/-- What the sides of a comparison are adapted to. -/
def commonAffinity (s : Scope) (a b : Expression) : Affinity :=
  match a.affinity? s, b.affinity? s with
  | some x, some y => if isNumeric x || isNumeric y then .numeric else .blob
  | some x, none | none, some x => x
  | none, none => .blob

/-- The order of the values of two expressions. -/
def order (s : Scope) (a b : Expression) (v w : Value) : Ordering :=
  let (v, w) := match commonAffinity s a b, v, w with
    | .text, .integer i, .integer j => (Value.integer i, Value.integer j)
    | f, v, w => (f.adaptAsked v, f.adaptAsked w)
  v.compare (commonCollation s a b) w

/-- What both of two conditions are. -/
def conjunction : Option Bool → Option Bool → Option Bool
  | some false, _ | _, some false => some false
  | some true, some true => some true
  | _, _ => none

/-- What one of two conditions is. -/
def disjunction : Option Bool → Option Bool → Option Bool
  | some true, _ | _, some true => some true
  | some false, some false => some false
  | _, _ => none

/-- The value of an expression. -/
def eval (s : Scope) : Expression → Value
  | value v => v
  | column name => (s.value name).getD .null
  | quoted name => (s.value name).getD (.text name)
  | collated e _ => e.eval s
  | plain e => e.eval s
  | operated f e => f.apply (e.eval s)
  | combined f a b => f.apply (a.eval s) (b.eval s)
  | compared c a b =>
    match a.eval s, b.eval s with
    | .null, _ | _, .null => .null
    | v, w => .ofTruth (some (c.holds (order s a b v w)))
  | same a b => .ofTruth (some (order s a b (a.eval s) (b.eval s) == .eq))
  | both a b => .ofTruth (conjunction (a.eval s).truth? (b.eval s).truth?)
  | either a b => .ofTruth (disjunction (a.eval s).truth? (b.eval s).truth?)

/-- The columns that an expression has to have. -/
def columns : Expression → List String
  | value _ | quoted _ => []
  | column name => [name]
  | collated e _ | plain e | operated _ e => e.columns
  | combined _ a b | compared _ a b | same a b | both a b | either a b => a.columns ++ b.columns

end Expression

end CharacterArt.Index
