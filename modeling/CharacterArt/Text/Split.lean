/-!
# Splitting texts

## Main Definitions

* `split` — what stands between the occurrences of a character
* `joinWith` — texts with a character between them
-/

namespace CharacterArt.Text

/-- What stands between the occurrences of a character. -/
def split (c : Char) : List Char → List (List Char)
  | [] => [[]]
  | d :: rest =>
    if d = c then [] :: split c rest
    else
      match split c rest with
      | s :: more => (d :: s) :: more
      | [] => [[d]]

/-- Texts with a character between them. -/
def joinWith (c : Char) : List (List Char) → List Char
  | [] => []
  | [s] => s
  | s :: more => s ++ c :: joinWith c more

end CharacterArt.Text
