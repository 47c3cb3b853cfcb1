/-!
# Texts in reports

Texts between quotes, as reports about values show them.

## Main Definitions

* `showQuoted` — a text between quotes, with what cannot be seen written as a number
-/

namespace CharacterArt.Text

/-- A number in hexadecimal digits. -/
def hexDigits (n : Nat) : List Char :=
  Nat.toDigits 16 n

/-- Whether a character has no shape of its own: a control, or a mark on the letter before it. -/
def isShapeless (c : Char) : Bool :=
  c.toNat < 0x20 || decide (0x7F ≤ c.toNat ∧ c.toNat < 0xA0) || c.toNat == 0xAD ||
    decide (0x300 ≤ c.toNat ∧ c.toNat < 0x370) || decide (0x200B ≤ c.toNat ∧ c.toNat < 0x2010) ||
    decide (0x2028 ≤ c.toNat ∧ c.toNat < 0x202F) || decide (0x2060 ≤ c.toNat ∧ c.toNat < 0x2070) ||
    c.toNat == 0xFEFF

/-- A character between quotes. -/
def showChar (c : Char) : List Char :=
  if c = '"' then ['\\', '"']
  else if c = '\\' then ['\\', '\\']
  else if c = '\n' then ['\\', 'n']
  else if c = '\r' then ['\\', 'r']
  else if c = '\t' then ['\\', 't']
  else if c = '\x00' then ['\\', '0']
  else if isShapeless c then ['\\', 'u', '\x7b'] ++ hexDigits c.toNat ++ ['\x7d']
  else [c]

/-- A text between quotes, with what cannot be seen written as a number. -/
def showQuoted (s : String) : String :=
  "\"" ++ String.ofList (s.toList.flatMap showChar) ++ "\""

end CharacterArt.Text
