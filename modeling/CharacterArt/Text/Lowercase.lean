import CharacterArt.Text.CaseTable

/-!
# Lowercasing

The full lowercase form of a text: every character has its lowercase form, the capital sigma the
form that its place in the word asks for, and the dotted capital I the letter with its dot.

## Main Definitions

* `lowerChar` — the lowercase form of one character, whatever stands around it
* `endsWord` — whether a capital sigma between two stretches of text ends a word
* `lowercase` — the lowercase form of a text

## Design Notes

`lowerFrom` carries the characters already passed, nearest first, since a sigma looks at both
sides.  Only the sigma depends on its surroundings, so the form of a text with a fixed ASCII tail
such as `_alpha` is the form of the text followed by the form of the tail.
-/

namespace CharacterArt.Text

/-- Whether a character has letter case. -/
def isCased (c : Char) : Bool :=
  if c.toNat < 0x80 then c.isAlpha else casedRanges.any (·.contains c.toNat)

/-- Whether a character is passed over when a sigma looks for the letters around it. -/
def isCaseIgnorable (c : Char) : Bool :=
  if c.toNat < 0x80 then decide (c.toNat ∈ [0x27, 0x2E, 0x3A, 0x5E, 0x60])
  else ignorableRanges.any (·.contains c.toNat)

/-- The lowercase form of a character on its own. -/
def lowerChar (c : Char) : List Char :=
  if c.toNat < 0x80 then [c.toLower]
  else if c = 'İ' then ['i', '\u0307']
  else
    match shifts.find? (·.covers c.toNat) with
    | some s => [Char.ofNat ((c.toNat : Int) + s.distance).toNat]
    | none => [c]

/-- Whether the first character that is not passed over is a cased one. -/
def reachesCased (cs : List Char) : Bool :=
  match cs.dropWhile isCaseIgnorable with
  | c :: _ => isCased c
  | [] => false

/-- A capital sigma ends a word if a letter stands before it and none after it.  The text before
is given from the sigma backwards. -/
def endsWord (before after : List Char) : Bool :=
  reachesCased before && !reachesCased after

/-- The lowercase form of a stretch of text that follows `before`, which is given backwards. -/
def lowerFrom (before : List Char) : List Char → List Char
  | [] => []
  | c :: rest =>
    (if c = 'Σ' then [if endsWord before rest then 'ς' else 'σ'] else lowerChar c) ++
      lowerFrom (c :: before) rest

/-- The lowercase form of a text. -/
def lowercase (s : String) : String :=
  String.ofList (lowerFrom [] s.toList)

end CharacterArt.Text
