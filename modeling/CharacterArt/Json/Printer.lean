/-!
# Writing JSON

## Main Definitions

* `quote` — a text between quotes
* `printMap` — a map from texts to texts, one entry a line
-/

namespace CharacterArt.Json

/-- A hexadecimal digit in lower case. -/
def hexChar (d : Nat) : Char :=
  if d < 10 then Char.ofNat (0x30 + d) else Char.ofNat (0x61 + d - 10)

/-- A character inside quotes: quotes, backslashes and control characters are escaped. -/
def quoteChar (c : Char) : List Char :=
  if c = '"' then ['\\', '"']
  else if c = '\\' then ['\\', '\\']
  else if c = '\n' then ['\\', 'n']
  else if c = '\r' then ['\\', 'r']
  else if c = '\t' then ['\\', 't']
  else if c = '\x08' then ['\\', 'b']
  else if c = '\x0c' then ['\\', 'f']
  else if c.toNat < 0x20 then
    ['\\', 'u', '0', '0', hexChar (c.toNat / 16), hexChar (c.toNat % 16)]
  else [c]

/-- A text between quotes. -/
def quote (s : String) : String :=
  "\"" ++ String.ofList (s.toList.flatMap quoteChar) ++ "\""

/-- A map from texts to texts, one entry a line, indented by two blanks. -/
def printMap (entries : List (String × String)) : String :=
  if entries.isEmpty then "\x7b\x7d"
  else
    "\x7b\n" ++
      String.intercalate ",\n"
        (entries.map fun (key, value) => "  " ++ quote key ++ ": " ++ quote value) ++
      "\n\x7d"

end CharacterArt.Json
