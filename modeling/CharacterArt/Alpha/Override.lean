import CharacterArt.Error
import CharacterArt.Text.Lowercase
import CharacterArt.Toml.Parser
import Std.Data.TreeMap.Basic

/-!
# Override tables

Some images have a mask that no rule finds by its name.  A table names it: another object, or an
image that was written earlier.

## Main Definitions

* `Override` — an entry of a table, as it is written
* `OverrideTarget` — where a mask is taken from
* `OverrideTable` — the targets by output path, with `ofEntries`, `parse`, `find?`
* `OverrideTable.standard` — the table that is used unless another one is configured

## Design Notes

Output paths compare with slashes for backslashes and with their directories in lower case; the
name of the file keeps its case, since it is the name of the object.  Of several entries for one
path the last one counts.
-/

namespace CharacterArt.Alpha

open Text (lowercase)

/-- Where an override takes its mask from. -/
inductive OverrideTarget where
  /-- The object of that name. -/
  | asset (name : String)
  /-- The image that was written to that path. -/
  | output (path : String)
  deriving DecidableEq, Repr

/-- An entry of an override table, as it is written. -/
structure Override where
  image : String
  asset : Option String
  output : Option String
  deriving DecidableEq, Repr

/-- A character of a path with a slash for a backslash. -/
def slash (c : Char) : Char :=
  if c = '\\' then '/' else c

/-- The form in which output paths compare. -/
def normalizePath (path : String) : String :=
  let back := (path.toList.map slash).reverse
  let name := (back.takeWhile (· != '/')).reverse
  match back.dropWhile (· != '/') with
  | [] => String.ofList name
  | _ :: directory =>
    lowercase (String.ofList directory.reverse) ++ String.ofList ('/' :: name)

/-- The target of an entry, which names exactly one. -/
def Override.target (o : Override) : Except OverrideFault OverrideTarget :=
  match o.asset, o.output with
  | some name, none => .ok (.asset name)
  | none, some path => .ok (.output (normalizePath path))
  | some _, some _ => .error .bothTargets
  | none, none => .error .noTarget

/-- The targets of overridden images, by normal path. -/
abbrev OverrideTable := Std.TreeMap String OverrideTarget

namespace OverrideTable

/-- Add an entry to a table. -/
def add (table : OverrideTable) (o : Override) : Except Error OverrideTable :=
  match o.target with
  | .ok target => .ok (table.insert (normalizePath o.image) target)
  | .error fault => .error (.invalidOverride o.image fault)

/-- The table of a list of entries. -/
def ofEntries (entries : List Override) : Except Error OverrideTable :=
  entries.foldlM add ∅

/-- The target for an output path, if it is overridden. -/
def find? (table : OverrideTable) (path : String) : Option OverrideTarget :=
  table[normalizePath path]?

end OverrideTable

/-! ### Tables as text -/

open Toml (Value Members)

/-- A text that may be missing. -/
def textField (v : Option Value) : Option (Option String) :=
  match v with
  | none => some none
  | some (.string s) => some (some s)
  | some _ => none

/-- An entry, from a table with its fields or from a list of them in order. -/
def Override.ofValue : Value → Option Override
  | .table _ members => do
    match members.lookup "image" with
    | some (.string image) =>
      return ⟨image, ← textField (members.lookup "asset"), ← textField (members.lookup "output")⟩
    | _ => none
  | .array (.string image :: rest) => do
    return ⟨image, ← textField rest[0]?, ← textField rest[1]?⟩
  | _ => none

/-- The entries of a document. -/
def Override.ofMembers (members : Members) : Option (List Override) :=
  match members.lookup "override" with
  | none => some []
  | some (.array items) => items.mapM Override.ofValue
  | some (.tables items) => items.mapM Override.ofValue
  | some _ => none

/-- The table that a text spells. -/
def OverrideTable.parse (text : String) : Except Error OverrideTable :=
  match (Toml.parse text).bind Override.ofMembers with
  | some entries => ofEntries entries
  | none => .error .config

/-- The entries that are used unless another table is configured. -/
def OverrideTable.standardEntries : List Override := [
  ⟨"ar18/AR18_N_1.png", none, some "ar18/AR18_N_0.png"⟩,
  ⟨"ar18/AR18_N_2.png", none, some "ar18/AR18_N_0.png"⟩,
  ⟨"ar18/AR18_N_3.png", none, some "ar18/AR18_N_0.png"⟩,
  ⟨"ar18/AR18_N_4.png", none, some "ar18/pic_AR18.png"⟩,
  ⟨"npc-sakura/Pic_Sakura_D.png", none, some "npc-sakura/Pic_Sakura_D_1.png"⟩]

/-- The table that is used unless another one is configured. -/
def OverrideTable.standard : OverrideTable :=
  match ofEntries standardEntries with
  | .ok table => table
  | .error _ => ∅

end CharacterArt.Alpha
