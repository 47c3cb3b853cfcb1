/-!
# Readers

A reader takes what it wants from the front of a text and leaves the rest, or refuses the text.

## Main Definitions

* `Reader` — readers, with the monad that runs one after the other
* `Reader.take`, `Reader.char`, `Reader.takeWhile` — the basic readers
* `Reader.many`, `Reader.separated` — repetition
* `Reader.run` — the result of a reader that has to take the whole text

## Design Notes

A refused alternative takes nothing: `p <|> q` runs `q` on the same text.  Every reader knows the
length of the whole text.  Repetition counts down from there, which bounds the number of rounds
since every round takes a character.
-/

namespace CharacterArt.Text

/-- A reader of the front of a text, which knows the length of the whole. -/
abbrev Reader := ReaderT Nat (StateT (List Char) Option)

namespace Reader

/-- The next character, which is left where it is, or `none` at the end. -/
def peek : Reader (Option Char) := do
  return (← get).head?

/-- Take the next character. -/
def take : Reader Char := do
  match ← get with
  | [] => failure
  | c :: rest => set rest; return c

/-- Take the next character if it satisfies `p`. -/
def takeIf (p : Char → Bool) : Reader Char := do
  let c ← take
  if p c then return c else failure

/-- Take one character that must be `c`. -/
def char (c : Char) : Reader Unit := do
  let _ ← takeIf (· == c)

/-- Take a fixed text. -/
def string (s : String) : Reader Unit :=
  s.toList.forM char

/-- Take the longest stretch of characters that satisfy `p`. -/
def takeWhile (p : Char → Bool) : Reader (List Char) := do
  let cs ← get
  set (cs.dropWhile p)
  return cs.takeWhile p

/-- Take the longest stretch of characters that satisfy `p`, which must not be empty. -/
def whileSome (p : Char → Bool) : Reader (List Char) := do
  let cs ← Reader.takeWhile p
  if cs.isEmpty then failure else return cs

/-- Whether the next character is `c`; if so, it is taken. -/
def skip (c : Char) : Reader Bool := do
  match ← get with
  | [] => return false
  | d :: rest => if c = d then set rest; return true else return false

/-- At most `rounds` repetitions after those that gave `before`, last first. -/
def manyUpTo {α : Type} (item : Reader α) : Nat → (before : List α) → Reader (List α)
  | 0, before => return before.reverse
  | rounds + 1, before => fun size cs =>
    match item size cs with
    | none => some (before.reverse, cs)
    | some (a, rest) => manyUpTo item rounds (a :: before) size rest

/-- Items as long as they can be read, each of which takes a character. -/
def many {α : Type} (item : Reader α) : Reader (List α) := do
  manyUpTo item (← read) []

/-- At most `rounds` items that each follow a separator, after those in `before`, last first. -/
def followersUpTo {α : Type} (separator : Reader Bool) (item : Reader α) :
    Nat → (before : List α) → Reader (List α)
  | 0, _ => failure
  | rounds + 1, before => fun size cs =>
    match separator size cs with
    | none => none
    | some (false, rest) => some (before.reverse, rest)
    | some (true, rest) =>
      match item size rest with
      | none => none
      | some (a, rest) => followersUpTo separator item rounds (a :: before) size rest

/-- One item or more with a separator between them.  A separator must be followed by an item. -/
def separated {α : Type} (separator : Reader Bool) (item : Reader α) : Reader (List α) := do
  let a ← item
  followersUpTo separator item ((← read) + 1) [a]

/-- What is next if `r` is read, which is left where it is, or `none` at the end.  Refuses what `r`
refuses. -/
def peekAfter {α : Type} (r : Reader α) : Reader (Option Char) := do
  let cs ← get
  let _ ← r
  let next ← peek
  set cs
  return next

/-- Succeeds at the end of the text only. -/
def finish : Reader Unit := do
  if (← get).isEmpty then return () else failure

/-- The result of a reader that has to take the whole text. -/
def run {α : Type} (r : Reader α) (s : String) : Option α :=
  let whole : Reader α := do
    let a ← r
    finish
    return a
  (whole s.length s.toList).map Prod.fst

end Reader

end CharacterArt.Text
