import CharacterArt.Text.Utf8

/-!
# Values in a database

What a cell of a table holds, how a column adapts what is put into it, and in which order values
stand.

## Main Definitions

* `Value` — nothing, a number or a text
* `Value.ofNumeral?` — the number that a text spells
* `Value.toNumber`, `Value.toText?`, `Value.truth?` — a value where another kind is wanted
* `Affinity`, `Affinity.adapt` — what a column makes of the values that are put into it
* `Collation`, `Value.compare` — orders of texts, and the order of all values
* `Affinity.isEqual` — whether a value in a column equals one that is asked for

## Design Notes

A column has an affinity, not a type: a text that spells no number stays a text even in a column of
numbers.  Nothing comes before numbers, and numbers before texts.
-/

namespace CharacterArt.Index

/-- What a cell of a table holds. -/
inductive Value where
  | null
  | integer (i : Int)
  | real (x : Float)
  | text (s : String)
  deriving Repr, Inhabited

namespace Value

/-! ### Numerals -/

/-- Whether a character is a blank beside a numeral. -/
def isSpace (c : Char) : Bool :=
  c == ' ' || (decide ('\t' ≤ c) && decide (c ≤ '\r'))

/-- The number that decimal digits spell. -/
def ofDigits (ds : List Char) : Nat :=
  ds.foldl (fun n c => n * 10 + (c.toNat - '0'.toNat)) 0

/-- Whether a sign is negative, and what stands behind it. -/
def sign : List Char → Bool × List Char
  | '-' :: rest => (true, rest)
  | '+' :: rest => (false, rest)
  | cs => (false, cs)

/-- The power of ten at the front of a text, if there is one, and what stands behind it. -/
def power (cs : List Char) : Option Int × List Char :=
  match cs with
  | e :: rest =>
    let (negative, rest) := sign rest
    let ds := rest.takeWhile Char.isDigit
    if (e == 'e' || e == 'E') && !ds.isEmpty then
      let n : Int := ofDigits ds
      (some (if negative then -n else n), rest.dropWhile Char.isDigit)
    else (none, cs)
  | [] => (none, cs)

/-- A number times a power of ten. -/
def scaled (digits : List Char) (power : Int) : Float :=
  let n := ofDigits digits
  if n = 0 ∨ power < -(400 + digits.length : Int) then 0
  else if 400 < power then 1 / 0
  else Float.ofScientific n (decide (power < 0)) power.natAbs

/-- Whether a number has 64 bits. -/
def isShort (i : Int) : Bool :=
  decide (Int64.minValue.toInt ≤ i) && decide (i ≤ Int64.maxValue.toInt)

/-- The number at the front of a text, and what stands behind it. -/
def numeral? (cs : List Char) : Option (Value × List Char) :=
  let (negative, cs) := sign (cs.dropWhile isSpace)
  let whole := cs.takeWhile Char.isDigit
  let rest := cs.dropWhile Char.isDigit
  let (pointed, fraction, rest) := match rest with
    | '.' :: rest => (true, rest.takeWhile Char.isDigit, rest.dropWhile Char.isDigit)
    | _ => (false, [], rest)
  if whole.isEmpty && fraction.isEmpty then none
  else
    let (exponent, rest) := power rest
    let n : Int := ofDigits whole
    let i := if negative then -n else n
    if !pointed && exponent.isNone && isShort i then some (integer i, rest)
    else
      let x := scaled (whole ++ fraction) (exponent.getD 0 - fraction.length)
      some (real (if negative then -x else x), rest)

/-- The number that a text spells, with blanks around it. -/
def ofNumeral? (s : String) : Option Value :=
  match numeral? s.toList with
  | some (v, rest) => if rest.all isSpace then some v else none
  | none => none

/-- The number at the front of a text, or zero; numbers are as they are. -/
def toNumber : Value → Value
  | text s => ((numeral? s.toList).map Prod.fst).getD (integer 0)
  | v => v

/-- A whole number as such. -/
def whole : Value → Value
  | real x =>
    let i := x.toInt64.toInt
    let isInside := decide (Int64.minValue.toInt < i) && decide (i < Int64.maxValue.toInt)
    if Float.ofInt i == x && isInside then integer i else real x
  | v => v

/-! ### Texts -/

/-- A number that is no whole one with 15 significant digits. -/
def showReal (x : Float) : String :=
  let y := x.abs
  let places := (List.range 15).find? fun n => y < Float.ofScientific 1 false n
  let behind := 15 - places.getD 15
  let digits := Nat.toDigits 10 (y * Float.ofScientific 1 false behind).round.toUInt64.toNat
  let digits := List.replicate (behind + 1 - digits.length) '0' ++ digits
  let front := digits.take (digits.length - behind)
  let back := ((digits.drop (digits.length - behind)).reverse.dropWhile (· == '0')).reverse
  String.ofList ((if x < 0 then ['-'] else []) ++ front ++ '.' :: (if back.isEmpty then ['0'] else back))

/-- A value as a text, unless it is nothing. -/
def toText? : Value → Option String
  | null => none
  | integer i => some (toString i)
  | real x => some (showReal x)
  | text s => some s

/-! ### Truth -/

/-- Whether a value counts as true, unless it is nothing. -/
def truth? (v : Value) : Option Bool :=
  match v.toNumber with
  | null => none
  | integer i => some (i != 0)
  | real x => some (x != 0)
  | text _ => some false

/-- A truth value, or nothing, as a value. -/
def ofTruth : Option Bool → Value
  | none => null
  | some b => integer (if b then 1 else 0)

/-! ### Orders -/

/-- The order of a whole number and another one. -/
def compareWhole (i : Int) (x : Float) : Ordering :=
  if x < -9223372036854775808.0 then .gt
  else if 9223372036854775808.0 ≤ x then .lt
  else
    match Ord.compare i x.toInt64.toInt with
    | .eq =>
      let y := Float.ofInt i
      if y < x then .lt else if x < y then .gt else .eq
    | order => order

/-- The order of two numbers. -/
def compareReal (x y : Float) : Ordering :=
  if x < y then .lt else if y < x then .gt else .eq

end Value

/-- An order of texts. -/
inductive Collation where
  | binary
  /-- Latin letters of either case are the same. -/
  | noCase
  /-- Blanks at the end do not count. -/
  | trimmed
  deriving DecidableEq, Repr

/-- The order of two texts. -/
def Collation.compare (c : Collation) (s t : String) : Ordering :=
  match c with
  | binary => Ord.compare s t
  | noCase =>
    let front (s : String) := String.ofList ((s.toList.takeWhile (· != '\x00')).map Char.toLower)
    (Ord.compare (front s) (front t)).then (Ord.compare s.utf8ByteSize t.utf8ByteSize)
  | trimmed =>
    let front (s : String) := String.ofList (s.toList.reverse.dropWhile (· == ' ')).reverse
    Ord.compare (front s) (front t)

/-- The order of two values. -/
def Value.compare (c : Collation) : Value → Value → Ordering
  | null, null => .eq
  | null, _ => .lt
  | _, null => .gt
  | text s, text t => c.compare s t
  | text _, _ => .gt
  | _, text _ => .lt
  | integer i, integer j => Ord.compare i j
  | integer i, real y => compareWhole i y
  | real x, integer j => (compareWhole j x).swap
  | real x, real y => compareReal x y

/-- What a column makes of the values that are put into it. -/
inductive Affinity where
  /-- They stay as they are. -/
  | blob
  /-- Numbers become texts. -/
  | text
  /-- Texts that spell numbers become numbers. -/
  | numeric
  /-- Texts that spell numbers become numbers, and none of them is a whole one. -/
  | real
  deriving DecidableEq, Repr

namespace Affinity

/-- A value as a column keeps it. -/
def adapt : Affinity → Value → Value
  | blob, v => v
  | text, v => (v.toText?.map .text).getD .null
  | numeric, .text s => ((Value.ofNumeral? s).map Value.whole).getD (.text s)
  | numeric, v => v.whole
  | real, .text s =>
    match Value.ofNumeral? s with
    | some (.integer i) => .real (Float.ofInt i)
    | some v => v
    | none => .text s
  | real, .integer i => .real (Float.ofInt i)
  | real, v => v

/-- A value that is compared with one in a column. -/
def adaptAsked (a : Affinity) (v : Value) : Value :=
  match a, v with
  | numeric, .text s | real, .text s => (Value.ofNumeral? s).getD (.text s)
  | text, v => (v.toText?.map .text).getD .null
  | _, v => v

/-- Whether a value in a column equals one that is asked for.  Nothing equals nothing. -/
def isEqual (a : Affinity) (c : Collation) (stored asked : Value) : Bool :=
  match stored, a.adaptAsked asked with
  | .null, _ | _, .null => false
  | stored, asked => stored.compare c asked == .eq

/-- The affinity of a column that is declared with a type, by what the name of the type holds. -/
def ofType (type : String) : Affinity :=
  let cs := type.toList.map Char.toUpper
  let holds (part : String) := (List.range cs.length).any fun n => part.toList.isPrefixOf (cs.drop n)
  if cs.isEmpty then blob
  else if holds "INT" then numeric
  else if holds "CHAR" || holds "CLOB" || holds "TEXT" then text
  else if holds "BLOB" then blob
  else if holds "REAL" || holds "FLOA" || holds "DOUB" then real
  else numeric

end Affinity

end CharacterArt.Index
