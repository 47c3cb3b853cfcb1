/-!
# JSON values

A JSON document as it was written: numerals keep their digits, and texts keep the code units of
their escapes, since a value that nobody asks for is checked for its form alone.

## Main Definitions

* `Numeral` — a number as it was written
* `Quantity`, `Numeral.quantity` — the number that a numeral stands for
* `Piece`, `textOf` — the text that pieces of a string spell
* `Value` — a document

## Design Notes

A numeral with neither fraction nor exponent stands for an integer if that has 64 bits.  Any other
numeral stands for a binary64 number that is computed from its first digits, as many as fit 64
bits, and one product or quotient by a power of ten; it may differ from the nearest such number in
the last place.  A numeral beyond the largest binary64 number stands for none.
-/

namespace CharacterArt.Json

/-- A number as it was written. -/
structure Numeral where
  negative : Bool
  /-- The digits before the point. -/
  whole : List Char
  /-- The digits after the point. -/
  fraction : List Char := []
  /-- The exponent: whether it is negative, and its digits. -/
  exponent : Option (Bool × List Char) := none
  deriving DecidableEq, Repr

/-- A number that a numeral stands for. -/
inductive Quantity where
  | unsigned (n : UInt64)
  | signed (i : Int64)
  | real (x : Float)

/-- The value of an ASCII digit. -/
def digitValue (c : Char) : Nat :=
  c.toNat - '0'.toNat

/-- Extend a significand by digits as long as it fits 64 bits.  The result also holds the digits
that are left over. -/
def extendSignificand (significand : Nat) : List Char → Nat × List Char
  | [] => (significand, [])
  | c :: rest =>
    let next := significand * 10 + digitValue c
    if next < UInt64.size then extendSignificand next rest else (significand, c :: rest)

/-- A significand times a power of ten.  An exponent beyond the table of powers is worked off in
steps of 308, of which three make every significand vanish. -/
def scale (x : Float) (exponent : Int) : Nat → Option Float
  | 0 => some x
  | steps + 1 =>
    if exponent.natAbs ≤ 308 then
      if 0 ≤ exponent then
        let y := x * Float.ofScientific 1 false exponent.natAbs
        if y.isInf then none else some y
      else some (x / Float.ofScientific 1 false exponent.natAbs)
    else if x == 0 then some x
    else if 0 ≤ exponent then none
    else scale (x / Float.ofScientific 1 false 308) (exponent + 308) steps

/-- Restrict an exponent to 32 bits. -/
def clampExponent (e : Int) : Int :=
  max Int32.minValue.toInt (min Int32.maxValue.toInt e)

/-- The magnitude of a numeral as a binary64 number. -/
def Numeral.magnitude (n : Numeral) : Option Float :=
  let (start, beyond) := extendSignificand 0 n.whole
  let (significand, left) := extendSignificand start n.fraction
  let shift : Int := (beyond.length : Int) - ((n.fraction.length - left.length : Nat) : Int)
  let x := significand.toUInt64.toFloat
  match n.exponent with
  | none => scale x shift 4
  | some (down, digits) =>
    let e := digits.foldl (fun e c => e * 10 + digitValue c) 0
    if e ≤ Int32.maxValue.toInt then scale x (clampExponent (if down then shift - e else shift + e)) 4
    else if significand != 0 && !down then none
    else some 0

/-- The number that a numeral stands for, or `none` if it is out of range. -/
def Numeral.quantity (n : Numeral) : Option Quantity :=
  let (significand, beyond) := extendSignificand 0 n.whole
  if n.fraction.isEmpty && n.exponent.isNone && beyond.isEmpty then
    if !n.negative then some (.unsigned significand.toUInt64)
    else if 0 < significand ∧ Int64.minValue.toInt ≤ -significand then
      some (.signed (Int64.ofInt (-significand)))
    else some (.real (-significand.toUInt64.toFloat))
  else
    n.magnitude.map fun x => .real (if n.negative then -x else x)

/-- A piece of a string: a character, or a UTF-16 code unit that was written as an escape. -/
inductive Piece where
  | char (c : Char)
  | unit (u : Nat)
  deriving DecidableEq, Repr

/-- The text that the pieces of a string spell.  A code unit of a surrogate pair must stand in
such a pair. -/
def textOf : List Piece → Option (List Char)
  | [] => some []
  | .char c :: rest => (textOf rest).map (c :: ·)
  | .unit u :: rest =>
    if 0xDC00 ≤ u ∧ u ≤ 0xDFFF then none
    else if 0xD800 ≤ u ∧ u ≤ 0xDBFF then
      match rest with
      | .unit v :: rest =>
        if 0xDC00 ≤ v ∧ v ≤ 0xDFFF then
          (textOf rest).map (Char.ofNat (0x10000 + (u - 0xD800) * 0x400 + (v - 0xDC00)) :: ·)
        else none
      | _ => none
    else (textOf rest).map (Char.ofNat u :: ·)

/-- A JSON document. -/
inductive Value where
  | null
  | bool (b : Bool)
  | number (n : Numeral)
  | string (s : List Piece)
  | array (items : List Value)
  | object (members : List (List Piece × Value))

end CharacterArt.Json
