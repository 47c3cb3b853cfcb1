import CharacterArt.Index.Value

/-!
# Tokens of definitions

## Main Definitions

* `Token` — words, quoted names, texts, numbers and marks
* `Token.scan` — the tokens of a text
* `Token.isReserved` — the words that are no names

## Design Notes

A name in double quotes may turn out to be a text, so it is told apart from a name in other quotes.
-/

namespace CharacterArt.Index

/-- A token of a definition. -/
inductive Token where
  /-- A word without quotes. -/
  | word (s : String)
  /-- A name in quotes, which may also be a text if they are double quotes. -/
  | quoted (s : String) (isDouble : Bool)
  | text (s : String)
  | number (v : Value)
  | mark (s : String)
  deriving Repr, Inhabited

namespace Token

/-- The words that are no names. -/
def reserved : List String := [
  "ADD", "ALL", "ALTER", "AND", "AS", "AUTOINCREMENT", "BETWEEN", "CASE", "CHECK", "COLLATE",
  "COMMIT", "CONSTRAINT", "CREATE", "DEFAULT", "DEFERRABLE", "DELETE", "DISTINCT", "DROP", "ELSE",
  "ESCAPE", "EXCEPT", "EXISTS", "FOREIGN", "FROM", "GROUP", "HAVING", "IN", "INDEX", "INSERT",
  "INTERSECT", "INTO", "IS", "ISNULL", "JOIN", "LIMIT", "NOT", "NOTHING", "NOTNULL", "NULL", "ON",
  "OR", "ORDER", "PRIMARY", "REFERENCES", "RETURNING", "SELECT", "SET", "TABLE", "THEN", "TO",
  "TRANSACTION", "UNION", "UNIQUE", "UPDATE", "USING", "VALUES", "WHEN", "WHERE"]

/-- The words that are names, but not of types. -/
def untyped : List String :=
  ["CROSS", "FULL", "INDEXED", "INNER", "LEFT", "NATURAL", "OUTER", "RIGHT"]

/-- Whether a word is no name. -/
def isReserved (s : String) : Bool :=
  reserved.contains (s.map Char.toUpper)

/-! ### Characters -/

/-- Whether a character separates tokens. -/
def isBlank (c : Char) : Bool :=
  c == ' ' || c == '\t' || c == '\n' || c == '\x0C' || c == '\r'

/-- Whether a word may begin with a character. -/
def isFirst (c : Char) : Bool :=
  c.isAlpha || c == '_' || decide (0x80 ≤ c.toNat)

/-- Whether a character may stand in a word. -/
def isInner (c : Char) : Bool :=
  isFirst c || c.isDigit || c == '$'

/-! ### Single tokens -/

/-- What stands up to a closing quote, which is written twice if it belongs to the text, and the
rest of the text. -/
def upTo (quote : Char) : List Char → Option (List Char × List Char)
  | [] => none
  | c :: rest =>
    if c = quote then
      match rest with
      | d :: rest' =>
        if d = quote then (upTo quote rest').map fun (cs, rest) => (c :: cs, rest)
        else some ([], rest)
      | [] => some ([], [])
    else (upTo quote rest).map fun (cs, rest) => (c :: cs, rest)

/-- What stands behind a remark up to the end of the line. -/
def afterLine (cs : List Char) : List Char :=
  (cs.dropWhile (· != '\n')).drop 1

/-- What stands behind a remark that has an end of its own. -/
def afterRemark : List Char → List Char
  | '*' :: '/' :: rest => rest
  | _ :: rest => afterRemark rest
  | [] => []

/-- The marks, longer ones first. -/
def marks : List String :=
  ["||", "==", "<>", "!=", "<=", ">=", "<<", ">>", "(", ")", ",", ";", "+", "-", "*", "/", "%", "=",
    "<", ">", "&", "|", "~", "."]

/-- The mark at the front of a text, and the rest. -/
def markAt? (cs : List Char) : Option (String × List Char) :=
  (marks.find? fun m => m.toList.isPrefixOf cs).map fun m => (m, cs.drop m.length)

/-- The value of hexadecimal digits. -/
def ofHex (ds : List Char) : Nat :=
  ds.foldl (fun n c =>
    n * 16 + (if c.isDigit then c.toNat - 48 else c.toLower.toNat - 87)) 0

/-- Whether a character is a hexadecimal digit. -/
def isHex (c : Char) : Bool :=
  c.isDigit || (decide ('a' ≤ c.toLower) && decide (c.toLower ≤ 'f'))

/-- A number with the digits that are written, and the rest.  No word follows right behind it. -/
def numberAt? (cs : List Char) : Option (Token × List Char) :=
  let result := match cs with
    | '0' :: x :: rest =>
      if x.toLower == 'x' && !(rest.takeWhile isHex).isEmpty then
        let n := ofHex (rest.takeWhile isHex)
        if n < UInt64.size then
          let i : Int := if n ≤ Int64.maxValue.toInt then n else n - UInt64.size
          some (Value.integer i, rest.dropWhile isHex)
        else none
      else Value.numeral? cs
    | cs => Value.numeral? cs
  match result with
  | some (v, rest) =>
    match rest with
    | c :: _ => if isInner c then none else some (number v, rest)
    | [] => some (number v, [])
  | none => none

/-- A remark or a blank at the front of a text: the rest of the text. -/
def skip? : List Char → Option (List Char)
  | '-' :: '-' :: rest => some (afterLine rest)
  | '/' :: '*' :: rest => some (afterRemark rest)
  | c :: rest => if isBlank c then some rest else none
  | [] => none

/-- The token at the front of a text, and the rest. -/
def next? (cs : List Char) : Option (Token × List Char) :=
  let startsNumber := match cs with
    | '.' :: d :: _ => d.isDigit
    | d :: _ => d.isDigit
    | [] => false
  match cs with
  | [] => none
  | '\'' :: rest => (upTo '\'' rest).map fun (s, rest) => (text (String.ofList s), rest)
  | '"' :: rest => (upTo '"' rest).map fun (s, rest) => (quoted (String.ofList s) true, rest)
  | '\x60' :: rest => (upTo '\x60' rest).map fun (s, rest) => (quoted (String.ofList s) false, rest)
  | '[' :: rest =>
    match rest.dropWhile (· != ']') with
    | _ :: after => some (quoted (String.ofList (rest.takeWhile (· != ']'))) false, after)
    | [] => none
  | c :: rest =>
    if startsNumber then numberAt? cs
    else if isFirst c then
      let inner := rest.takeWhile isInner
      if c.toLower == 'x' && inner.isEmpty && rest.head? == some '\'' then none
      else some (word (String.ofList (c :: inner)), rest.dropWhile isInner)
    else (markAt? cs).map fun (m, rest) => (mark m, rest)

/-! ### All tokens -/

/-- The tokens of a text, at most `rounds` steps away from its front. -/
def scanUpTo : (rounds : Nat) → List Char → Option (List Token)
  | _, [] => some []
  | 0, _ :: _ => none
  | rounds + 1, c :: cs =>
    match skip? (c :: cs) with
    | some rest => scanUpTo rounds rest
    | none => do
      let (t, rest) ← next? (c :: cs)
      return t :: (← scanUpTo rounds rest)

/-- The tokens of a text. -/
def scan (s : String) : Option (List Token) :=
  scanUpTo s.length s.toList

/-- Whether a token is a certain word, in letters of either case. -/
def isWord (t : Token) (s : String) : Bool :=
  match t with
  | word w => w.map Char.toUpper == s
  | _ => false

/-- Whether a token is a certain mark. -/
def isMark (t : Token) (s : String) : Bool :=
  match t with
  | mark m => m == s
  | _ => false

end Token

end CharacterArt.Index
