import CharacterArt.Json.Value
import CharacterArt.Text.Reader

/-!
# Reading JSON

## Main Definitions

* `Value.parse` — the document that a text spells

## Design Notes

The grammar is that of RFC 8259: no comments, no trailing commas, no byte order mark.  Nesting has
no limit; `value` counts down from the length of the text, which bounds its depth.
-/

namespace CharacterArt.Json

open Text (Reader)

/-- Take blanks. -/
def blanks : Reader Unit := do
  let _ ← Reader.takeWhile fun c => c == ' ' || c == '\n' || c == '\t' || c == '\r'

/-- The value of a hexadecimal digit. -/
def hexValue (c : Char) : Option Nat :=
  if c.isDigit then some (c.toNat - '0'.toNat)
  else if 'a' ≤ c ∧ c ≤ 'f' then some (c.toNat - 'a'.toNat + 10)
  else if 'A' ≤ c ∧ c ≤ 'F' then some (c.toNat - 'A'.toNat + 10)
  else none

/-- A hexadecimal digit. -/
def hexDigit : Reader Nat := do
  match hexValue (← Reader.take) with
  | some d => return d
  | none => failure

/-- What follows a backslash. -/
def escape : Reader Piece := do
  match ← Reader.take with
  | '"' => return .char '"'
  | '\\' => return .char '\\'
  | '/' => return .char '/'
  | 'b' => return .char '\x08'
  | 'f' => return .char '\x0c'
  | 'n' => return .char '\n'
  | 'r' => return .char '\r'
  | 't' => return .char '\t'
  | 'u' =>
    let a ← hexDigit
    let b ← hexDigit
    let c ← hexDigit
    let d ← hexDigit
    return .unit (((a * 16 + b) * 16 + c) * 16 + d)
  | _ => failure

/-- One piece of a string. -/
def piece : Reader Piece := do
  let c ← Reader.take
  if c = '"' ∨ c.toNat < 0x20 then failure
  else if c = '\\' then escape
  else return .char c

/-- A string between quotes. -/
def quoted : Reader (List Piece) := do
  Reader.char '"'
  let pieces ← Reader.many piece
  Reader.char '"'
  return pieces

/-- The exponent of a numeral, if it has one. -/
def exponent : Reader (Option (Bool × List Char)) := do
  let lower ← Reader.skip 'e'
  let marked ← if lower then pure true else Reader.skip 'E'
  if marked then
    let down ← Reader.skip '-'
    if !down then
      let _ ← Reader.skip '+'
    return some (down, ← Reader.whileSome Char.isDigit)
  else return none

/-- A numeral.  A digit zero at the front stands alone. -/
def numeral : Reader Numeral := do
  let negative ← Reader.skip '-'
  let whole ← Reader.whileSome Char.isDigit
  if whole.head? = some '0' ∧ 1 < whole.length then failure
  let fraction ← if ← Reader.skip '.' then Reader.whileSome Char.isDigit else pure []
  return ⟨negative, whole, fraction, ← exponent⟩

/-- A comma with blanks around it, if there is one. -/
def comma : Reader Bool := do
  blanks
  Reader.skip ','

/-- A value with blanks around it. -/
def value : Nat → Reader Value
  | 0 => failure
  | depth + 1 => do
    blanks
    let v ← match ← Reader.peek with
      | some 'n' => Reader.string "null"; pure .null
      | some 't' => Reader.string "true"; pure (.bool true)
      | some 'f' => Reader.string "false"; pure (.bool false)
      | some '"' => .string <$> quoted
      | some '[' =>
        Reader.char '['
        blanks
        if ← Reader.skip ']' then pure (.array [])
        else
          let items ← Reader.separated comma (value depth)
          Reader.char ']'
          pure (.array items)
      | some '\x7b' =>
        Reader.char '\x7b'
        blanks
        if ← Reader.skip '\x7d' then pure (.object [])
        else
          let members ← Reader.separated comma do
            blanks
            let key ← quoted
            blanks
            Reader.char ':'
            let v ← value depth
            return (key, v)
          Reader.char '\x7d'
          pure (.object members)
      | _ => .number <$> numeral
    blanks
    return v

/-- The document that a text spells. -/
def Value.parse (s : String) : Option Value :=
  (value (s.length + 1)).run s

end CharacterArt.Json
