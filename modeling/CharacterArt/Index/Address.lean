import CharacterArt.Path
import CharacterArt.Text.Utf8

/-!
# Addresses of databases

A database is asked for by a path, or by an address that begins with `file:` and may say how the
database is to be used.

## Main Definitions

* `Access` — what may be done with a file
* `Address`, `Address.ofText?` — which database is meant, and how it is used
* `Address.place?` — where its file lies

## Design Notes

Options that are not known are ignored, and those that are must have one of their values.  Each
`mode` may only narrow the one before it.  A path is followed by spelling alone, and neither it nor
what is named after it may be too long.
-/

namespace CharacterArt.Index

open Text (Bytes)

/-- What may be done with the file of a database. -/
inductive Access where
  | readOnly
  | readWrite
  /-- The file is made if there is none. -/
  | create
  deriving DecidableEq, Repr

/-- Which database is meant, and how it is used. -/
structure Address where
  /-- The path of the file. -/
  path : String
  access : Access := .create
  /-- Whether the database lives as long as it is used and in no file. -/
  isTransient : Bool := false
  /-- Whether the file is taken to be one that nobody changes. -/
  isImmutable : Bool := false
  deriving DecidableEq, Repr

namespace Address

/-- Whether a path stands for a database in no file. -/
def isTransientPath (path : String) : Bool :=
  path.isEmpty || path == ":memory:"

/-! ### Options -/

/-- The number that a hexadecimal digit stands for. -/
def hexDigit? (b : UInt8) : Option UInt8 :=
  if 0x30 ≤ b ∧ b ≤ 0x39 then some (b - 0x30)
  else if 0x41 ≤ b ∧ b ≤ 0x46 then some (b - 0x37)
  else if 0x61 ≤ b ∧ b ≤ 0x66 then some (b - 0x57)
  else none

/-- The bytes that are meant where some are written as a percent sign and two digits.  A byte that
is zero ends them. -/
def decodeBytes : Bytes → Bytes
  | [] => []
  | b :: rest =>
    match b, rest with
    | 0x25, high :: low :: rest =>
      match hexDigit? high, hexDigit? low with
      | some h, some l => if h = 0 ∧ l = 0 then [] else (h * 16 + l) :: decodeBytes rest
      | _, _ => b :: decodeBytes (high :: low :: rest)
    | b, rest => b :: decodeBytes rest

/-- The text that is meant where some of its bytes are written as a percent sign and two digits. -/
def decode (cs : List Char) : String :=
  Text.Utf8.decodeLossy (decodeBytes (cs.flatMap Text.Utf8.encodeChar))

/-- A name and what stands behind an equals sign, which may be missing. -/
def option (cs : List Char) : String × String :=
  (decode (cs.takeWhile (· != '=')), decode ((cs.dropWhile (· != '=')).drop 1))

/-- The options behind a question mark.  Those without a name do not count. -/
def options (cs : List Char) : List (String × String) :=
  ((Text.split '&' cs).map option).filter fun (name, _) => !name.isEmpty

/-- How the database is used, and whether it is kept in no file, after a mode is asked for. -/
def withMode (a : Address) (mode : String) : Option Address :=
  let narrow (access : Access) (atMost : List Access) : Option Address :=
    if a.isTransient || atMost.contains a.access then
      some { a with access := access, isTransient := false }
    else none
  match mode with
  | "ro" => narrow .readOnly [.readOnly, .readWrite, .create]
  | "rw" => narrow .readWrite [.readWrite, .create]
  | "rwc" => narrow .create [.create]
  | "memory" => some { a with access := .create, isTransient := true }
  | _ => none

/-- Whether a text stands for yes. -/
def isYes (s : String) : Bool :=
  let digits := s.toList.takeWhile Char.isDigit
  if digits.isEmpty then ["on", "yes", "true"].contains (s.map Char.toLower)
  else digits.foldl (fun n c => (n * 10 + (c.toNat - '0'.toNat)) % 256) 0 != 0

/-- The ways to use the file system. -/
def fileSystems : List String :=
  ["unix", "unix-none", "unix-dotfile", "unix-excl"]

/-- An address for which one more option holds. -/
def withOption (a : Address) : String × String → Option Address
  | ("cache", value) => if value == "shared" || value == "private" then some a else none
  | ("mode", value) => a.withMode value
  | _ => some a

/-- An address for which options hold. -/
def withOptions (a : Address) (os : List (String × String)) : Option Address := do
  let a ← os.foldlM withOption a
  let a := { a with isImmutable := (os.lookup "immutable").any isYes }
  match (os.filter fun (name, _) => name == "vfs").getLast? with
  | none => return a
  | some (_, fileSystem) =>
    if fileSystem == "memdb" then
      return { a with
        access := if a.isImmutable && !a.isTransient && !isTransientPath a.path then .readOnly
          else a.access
        isTransient := true }
    else if fileSystems.contains fileSystem then return a
    else none

/-! ### Texts -/

/-- What begins an address that is no path. -/
def scheme : String := "file:"

/-- What follows the name of a host, which may only be this one. -/
def afterHost? (cs : List Char) : Option (List Char) :=
  match cs with
  | '/' :: '/' :: rest =>
    let host := rest.takeWhile (· != '/')
    if host.isEmpty || host == "localhost".toList then some (rest.dropWhile (· != '/')) else none
  | cs => some cs

/-- The address that a text is, if it is one. -/
def ofText? (text : String) : Option Address := do
  let cs := text.toList
  if cs.contains '\x00' then none
  else if !scheme.toList.isPrefixOf cs then
    return { path := text, isTransient := isTransientPath text }
  else
    let cs ← afterHost? (cs.drop scheme.length)
    let cs := cs.takeWhile (· != '#')
    let path := decode (cs.takeWhile (· != '?'))
    let a ← ({ path := path } : Address).withOptions (options ((cs.dropWhile (· != '?')).drop 1))
    return { a with isTransient := a.isTransient || isTransientPath path }

/-- Whether a database may be written to. -/
def isWritable (a : Address) : Bool :=
  a.access != .readOnly && (a.isTransient || !a.isImmutable)

/-! ### Places -/

/-- The greatest number of bytes of a path on the way, and of that of a file. -/
def maxStepSize : Nat := 511

/-- The greatest number of bytes of the path of a file, so that there is room for what is named
after it. -/
def maxSize : Nat := 504

/-- How many bytes the path to a place has. -/
def sizeOf (place : List String) : Nat :=
  place.foldl (fun n name => n + name.utf8ByteSize + 1) 0

/-- Follow one segment of a path by spelling. -/
def follow (place : List String) (segment : List Char) : Option (List String) :=
  if Path.isIdle segment then some place
  else if segment = ['.', '.'] then some place.dropLast
  else
    let place := place ++ [String.ofList segment]
    if maxStepSize < sizeOf place then none else some place

/-- Where the file of a database lies, seen from a directory. -/
def place? (a : Address) (directory : List String) : Option (List String) := do
  let start := if Path.isAbsolute a.path then [] else directory
  let place ← (Path.segments a.path.toList).foldlM follow start
  if maxSize < sizeOf place then none else some place

end Address

end CharacterArt.Index
