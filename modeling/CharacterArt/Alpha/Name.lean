import CharacterArt.Text.Lowercase

/-!
# Mask names

An image and its alpha mask are two objects.  The mask carries the name of the image followed by
`_alpha` in any letter case, and numbered variants of an image may share one mask.

## Main Definitions

* `isMaskName` — whether a name is that of a mask
* `maskNameFor` — the lowercase name of the mask of an image
* `colorNameFor` — the name of the image that a mask belongs to
* `stripNumber` — a name without a final `_` and number

## Design Notes

The marker is ASCII, so it is compared character by character after ASCII lowercasing: a letter
that only full lowercasing would turn into one of its letters does not count.
-/

namespace CharacterArt.Alpha

open Text (lowercase)

/-- The end of every mask name, in lower case. -/
def marker : List Char := ['_', 'a', 'l', 'p', 'h', 'a']

/-- The name of the image that a mask belongs to: what stands before the marker, unless nothing
does. -/
def colorNameFor (name : String) : Option String :=
  let cs := name.toList
  let keep := cs.length - marker.length
  if marker.length < cs.length ∧ (cs.drop keep).map Char.toLower = marker then
    some (String.ofList (cs.take keep))
  else none

/-- Whether a name is that of a mask. -/
def isMaskName (name : String) : Bool :=
  (colorNameFor name).isSome

/-- The lowercase name of the mask of an image. -/
def maskNameFor (name : String) : String :=
  lowercase name ++ String.ofList marker

/-- Characters without a final `_` and ASCII number, if they end in one and something stands
before. -/
def dropNumber? (cs : List Char) : Option (List Char) :=
  match cs.reverse.takeWhile Char.isDigit, cs.reverse.dropWhile Char.isDigit with
  | _ :: _, '_' :: c :: base => some (c :: base).reverse
  | _, _ => none

/-- A name without a final `_` and ASCII number, if it ends in one and something stands before. -/
def stripNumber (name : String) : Option String :=
  (dropNumber? name.toList).map String.ofList

/-- What is left is shorter. -/
theorem length_of_dropNumber? {cs base : List Char} (h : dropNumber? cs = some base) :
    base.length < cs.length := by
  unfold dropNumber? at h
  split at h
  · rename_i _ hd
    have hl := (List.dropWhile_sublist Char.isDigit (l := cs.reverse)).length_le
    rw [hd] at hl
    cases h
    simp only [List.length_cons, List.length_reverse] at hl ⊢
    omega
  · cases h

end CharacterArt.Alpha
