import CharacterArt.Text.Reader
import CharacterArt.Toml.Value

/-!
# Reading TOML

## Main Definitions

* `Toml.value` — a value, with a limit on its nesting
* `Toml.parse` — the members of the root table of a document

## Design Notes

The grammar is that of TOML 1.0.0.  Arrays and inline tables nest less than 80 deep and keys have
less than 80 parts.  Dates and times are checked against the calendar and then only counted as
dates, and a real number is only checked not to exceed the largest binary64 number, since no
setting is of these types.
-/

namespace CharacterArt.Toml

open Text (Reader)

/-- How deep values nest and how long keys are, exclusively. -/
def depthLimit : Nat := 80

/-! ### Blanks, comments, line ends -/

/-- Blanks on a line. -/
def blanks : Reader Unit := do
  let _ ← Reader.takeWhile fun c => c == ' ' || c == '\t'

/-- Whether a character may stand in a comment. -/
def isCommentChar (c : Char) : Bool :=
  c == '\t' || (decide (0x20 ≤ c.toNat) && c.toNat != 0x7F)

/-- The end of a line. -/
def newline : Reader Unit := do
  let _ ← Reader.skip '\r'
  Reader.char '\n'

/-- A comment, if there is one. -/
def comment : Reader Unit := do
  if ← Reader.skip '#' then
    let _ ← Reader.takeWhile isCommentChar

/-- What may follow a value or a header on its line. -/
def lineEnd : Reader Unit := do
  blanks
  comment
  match ← Reader.peek with
  | none => return ()
  | some _ => newline

/-- Blanks, comments and line ends between the items of an array. -/
def gap : Reader Unit := do
  let _ ← Reader.many do
    match ← Reader.peek with
    | some ' ' | some '\t' => blanks
    | _ => comment; newline

/-! ### Strings and keys -/

/-- The value of a hexadecimal digit. -/
def hexValue (c : Char) : Option Nat :=
  if c.isDigit then some (c.toNat - '0'.toNat)
  else if 'a' ≤ c ∧ c ≤ 'f' then some (c.toNat - 'a'.toNat + 10)
  else if 'A' ≤ c ∧ c ≤ 'F' then some (c.toNat - 'A'.toNat + 10)
  else none

/-- A character written as `digits` hexadecimal digits. -/
def codePoint (digits : Nat) : Reader Char := do
  let mut code := 0
  for _ in List.range digits do
    match hexValue (← Reader.take) with
    | some d => code := code * 16 + d
    | none => failure
  if code.isValidChar then return Char.ofNat code else failure

/-- What follows a backslash. -/
def escape : Reader Char := do
  match ← Reader.take with
  | 'b' => return '\x08'
  | 't' => return '\t'
  | 'n' => return '\n'
  | 'f' => return '\x0c'
  | 'r' => return '\r'
  | '"' => return '"'
  | '\\' => return '\\'
  | 'u' => codePoint 4
  | 'U' => codePoint 8
  | _ => failure

/-- One character of a string in double quotes. -/
def basicChar : Reader Char := do
  let c ← Reader.take
  if c = '"' ∨ !isCommentChar c then failure
  else if c = '\\' then escape
  else return c

/-- A string in double quotes. -/
def basicString : Reader String := do
  Reader.char '"'
  let cs ← Reader.many basicChar
  Reader.char '"'
  return String.ofList cs

/-- A string in single quotes. -/
def literalString : Reader String := do
  Reader.char '\''
  let cs ← Reader.takeWhile fun c => c != '\'' && isCommentChar c
  Reader.char '\''
  return String.ofList cs

/-- Three quotes. -/
def fence (q : Char) : Reader Unit := do
  Reader.char q
  Reader.char q
  Reader.char q

/-- The end of a string over several lines: three quotes, and up to two before them that belong to
the string. -/
def closing (q : Char) : Reader (List Char) := do
  fence q
  if ← Reader.skip q then
    if ← Reader.skip q then return [q, q] else return [q]
  else return []

/-- A quote in a string over several lines that does not begin its end. -/
def looseQuote (q : Char) : Reader Char := do
  match ← get with
  | a :: b :: c :: _ => if a = q ∧ b = q ∧ c = q then failure
  | _ => pure ()
  Reader.char q
  return q

/-- A backslash at the end of a line, which takes the blanks and line ends after it away. -/
def splice : Reader Unit := do
  Reader.char '\\'
  blanks
  newline
  let _ ← Reader.many do
    match ← Reader.peek with
    | some ' ' | some '\t' => blanks
    | _ => newline

/-- A piece of a string in three double quotes. -/
def longPiece : Reader (List Char) :=
  (do splice; return []) <|> (do newline; return ['\n']) <|>
    (do return [← looseQuote '"']) <|> (do return [← basicChar])

/-- A string in three double quotes. -/
def longString : Reader String := do
  fence '"'
  (newline <|> pure ())
  let pieces ← Reader.many longPiece
  return String.ofList (pieces.flatten ++ (← closing '"'))

/-- A piece of a string in three single quotes. -/
def longLiteralPiece : Reader Char :=
  (do newline; return '\n') <|> looseQuote '\'' <|>
    Reader.takeIf fun c => c != '\'' && isCommentChar c

/-- A string in three single quotes. -/
def longLiteral : Reader String := do
  fence '\''
  (newline <|> pure ())
  let cs ← Reader.many longLiteralPiece
  return String.ofList (cs ++ (← closing '\''))

/-- A string of any form. -/
def string : Reader String := do
  match ← get with
  | '"' :: '"' :: '"' :: _ => longString
  | '"' :: _ => basicString
  | '\'' :: '\'' :: '\'' :: _ => longLiteral
  | _ => literalString

/-- A part of a key with blanks around it. -/
def keyPart : Reader String := do
  blanks
  let part ← match ← Reader.peek with
    | some '"' => basicString
    | some '\'' => literalString
    | _ => String.ofList <$> Reader.whileSome fun c => c.isAlphanum || c == '-' || c == '_'
  blanks
  return part

/-- A key. -/
def key : Reader (List String) := do
  let parts ← Reader.separated (Reader.skip '.') keyPart
  if depthLimit ≤ parts.length then failure else return parts

/-! ### Numbers and dates -/

/-- Digits with single underscores between them. -/
def digits (isDigit : Char → Bool) : Reader (List Char) := do
  let first ← Reader.takeIf isDigit
  let rest ← Reader.many do
    let _ ← Reader.skip '_'
    Reader.takeIf isDigit
  return first :: rest

/-- The number that digits spell in a base. -/
def numberOf (base : Nat) (ds : List Char) : Nat :=
  ds.foldl (fun n c => n * base + (hexValue c).getD 0) 0

/-- An integer of 64 bits. -/
def bounded (i : Int) : Reader Value :=
  if Int64.minValue.toInt ≤ i ∧ i ≤ Int64.maxValue.toInt then return .integer i else failure

/-- A sign, if there is one, and whether it is negative. -/
def sign : Reader Bool := do
  if ← Reader.skip '-' then return true
  let _ ← Reader.skip '+'
  return false

/-- Decimal digits without a zero at the front. -/
def decimalDigits : Reader (List Char) := do
  match ← Reader.peek with
  | some '0' => Reader.char '0'; return ['0']
  | _ => digits Char.isDigit

/-- An integer. -/
def integer : Reader Value := do
  match ← get with
  | '0' :: 'x' :: rest => set rest; bounded (numberOf 16 (← digits fun c => (hexValue c).isSome))
  | '0' :: 'o' :: rest => set rest; bounded (numberOf 8 (← digits fun c => '0' ≤ c && c ≤ '7'))
  | '0' :: 'b' :: rest => set rest; bounded (numberOf 2 (← digits fun c => c == '0' || c == '1'))
  | _ =>
    let negative ← sign
    let n := numberOf 10 (← decimalDigits)
    bounded (if negative then -(n : Int) else n)

/-- The exponent of a real number. -/
def exponent : Reader Int := do
  let _ ← Reader.takeIf fun c => c == 'e' || c == 'E'
  let negative ← sign
  let n := numberOf 10 (← digits Char.isDigit)
  return if negative then -(n : Int) else n

/-- Whether the digits of a positive number, times a power of ten, exceed what a binary64 number
holds: all from the middle between the largest one and the next power of two. -/
def exceedsReal (ds : List Char) (power : Int) : Bool :=
  let ds := ds.dropWhile (· == '0')
  let size : Int := (ds.length : Int) + power
  if ds.isEmpty || size < 300 then false
  else if 400 < size then true
  else
    let n := numberOf 10 ds
    let bound := (1 <<< 1024) - (1 <<< 970)
    if 0 ≤ power then bound ≤ n * Nat.pow 10 power.toNat
    else bound * Nat.pow 10 (-power).toNat ≤ n

/-- A real number with a point or an exponent. -/
def plainReal : Reader Value := do
  let negative ← sign
  let whole ← decimalDigits
  let fraction ← if ← Reader.skip '.' then digits Char.isDigit else pure []
  let power ← if fraction.isEmpty then exponent else exponent <|> pure 0
  if !negative && exceedsReal (whole ++ fraction) (power - fraction.length) then failure
  else return .real

/-- A real number that is none. -/
def specialReal : Reader Value := do
  let _ ← sign
  (Reader.string "inf" <|> Reader.string "nan")
  return .real

/-- `n` digits as a number in an interval. -/
def fixedDigits (n low high : Nat) : Reader Nat := do
  let mut value := 0
  for _ in List.range n do
    value := value * 10 + (hexValue (← Reader.takeIf Char.isDigit)).getD 0
  if low ≤ value ∧ value ≤ high then return value else failure

/-- The number of days of a month. -/
def daysOf (year month : Nat) : Nat :=
  if month = 2 then
    if year % 4 = 0 ∧ (year % 100 ≠ 0 ∨ year % 400 = 0) then 29 else 28
  else if month = 4 ∨ month = 6 ∨ month = 9 ∨ month = 11 then 30
  else 31

/-- A day. -/
def day : Reader Unit := do
  let year ← fixedDigits 4 0 9999
  Reader.char '-'
  let month ← fixedDigits 2 1 12
  Reader.char '-'
  let _ ← fixedDigits 2 1 (daysOf year month)

/-- A time of day. -/
def clock : Reader Unit := do
  let _ ← fixedDigits 2 0 23
  Reader.char ':'
  let _ ← fixedDigits 2 0 59
  Reader.char ':'
  let _ ← fixedDigits 2 0 60
  if ← Reader.skip '.' then
    let _ ← Reader.whileSome Char.isDigit

/-- The distance of a time zone. -/
def zone : Reader Unit := do
  if ← Reader.skip 'Z' then return ()
  if ← Reader.skip 'z' then return ()
  let _ ← Reader.takeIf fun c => c == '+' || c == '-'
  let _ ← fixedDigits 2 0 23
  Reader.char ':'
  let _ ← fixedDigits 2 0 59

/-- A date, a time or both. -/
def date : Reader Value := do
  (do
    day
    ((do
      let _ ← Reader.takeIf fun c => c == 'T' || c == 't' || c == ' '
      clock
      (zone <|> pure ())) <|> pure ())) <|> clock
  return .date

/-! ### Values -/

/-- Whether the next character is a comma; if so, it is taken, unless no item follows it. -/
def comma (item : Char → Bool) : Reader Bool := do
  match ← get with
  | ',' :: rest =>
    match ← Reader.peekAfter (do set rest; gap) with
    | some c => if item c then set rest; return true else return false
    | none => return false
  | _ => return false

/-- Add the pairs of an inline table one after the other. -/
def inlineMembers (pairs : List (List String × Value)) : Option Members :=
  pairs.foldlM (fun members (path, v) =>
    match path.getLast? with
    | some key =>
      putPair .inline members (path.length == 1) key v path.dropLast
    | none => none) []

/-- A value whose arrays and tables nest less than `depth` deep. -/
def value : (depth : Nat) → Reader Value
  | 0 => failure
  | depth + 1 => do
    match ← Reader.peek with
    | some '"' | some '\'' => .string <$> string
    | some '[' =>
      if depth = 0 then failure
      Reader.char '['
      gap
      if ← Reader.skip ']' then return .array []
      let items ← Reader.separated (comma (· != ']')) (do gap; let v ← value depth; gap; return v)
      let _ ← Reader.skip ','
      gap
      Reader.char ']'
      return .array items
    | some '\x7b' =>
      if depth = 0 then failure
      Reader.char '\x7b'
      blanks
      if ← Reader.skip '\x7d' then return .table .inline []
      let pairs ← Reader.separated (Reader.skip ',') do
        let path ← key
        Reader.char '='
        blanks
        let v ← value depth
        blanks
        return (path, v)
      Reader.char '\x7d'
      match inlineMembers pairs with
      | some members => return .table .inline members
      | none => failure
    | some 't' => Reader.string "true"; return .bool true
    | some 'f' => Reader.string "false"; return .bool false
    | some 'i' | some 'n' => specialReal
    | some _ => date <|> plainReal <|> specialReal <|> integer
    | none => failure

/-- A document that is being read: the root table and the last header. -/
structure Draft where
  members : Members := []
  header : List String := []

/-- One line of a document, or the blanks and comments of one. -/
def line (draft : Draft) : Reader Draft := do
  match ← get with
  | '#' :: _ => comment; lineEnd; return draft
  | '[' :: '[' :: rest =>
    set rest
    let path ← key
    Reader.string "]]"
    lineEnd
    match openElement draft.members path with
    | some members => return ⟨members, path⟩
    | none => failure
  | '[' :: rest =>
    set rest
    let path ← key
    Reader.char ']'
    lineEnd
    match openTable draft.members path with
    | some members => return ⟨members, path⟩
    | none => failure
  | '\n' :: _ | '\r' :: _ => newline; return draft
  | _ =>
    let path ← key
    Reader.char '='
    blanks
    let v ← value depthLimit
    lineEnd
    match path.getLast? with
    | none => failure
    | some last =>
      match putAt draft.members draft.header path.dropLast last v with
      | some members => return ⟨members, draft.header⟩
      | none => failure

/-- The lines of a document. -/
def lines : (rounds : Nat) → Draft → Reader Draft
  | 0, draft => return draft
  | rounds + 1, draft => do
    blanks
    match ← Reader.peek with
    | none => return draft
    | some _ => lines rounds (← line draft)

/-- The members of the root table of a document. -/
def parse (s : String) : Option Members :=
  (do
    let _ ← Reader.skip '\uFEFF'
    return (← lines (s.length + 1) {}).members : Reader Members).run s

end CharacterArt.Toml
