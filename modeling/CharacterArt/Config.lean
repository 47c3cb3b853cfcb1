import CharacterArt.Error
import CharacterArt.Path
import CharacterArt.Precedence
import CharacterArt.Toml.Parser

/-!
# Settings of a run

## Main Definitions

* `Config` — the settings, each with a default
* `Config.parse`, `Config.ofBytes` — settings from the text or the bytes of a file
* `Config.drainSeconds`, `Config.deadline?` — how long a pool is waited for, and until when
* `Config.indexPathFor` — where the index lies
-/

namespace CharacterArt

open Toml (Value Members)

/-- The settings of a run. -/
structure Config where
  /-- How many workers merge images; as many as the machine has if none is given. -/
  workers : Option Nat := none
  /-- Whether outputs that exist are merged again. -/
  force : Bool := false
  /-- Whether merged outputs are quantized. -/
  quantize : Bool := false
  /-- How many seconds a pool is waited for, per worker. -/
  secondsPerWorker : Nat := 30
  /-- Whether results also have keys made of names. -/
  nameKeys : Bool := false
  indexPath : Option String := none
  precedence : Precedence := {}
  /-- The file of the override table, if it is not the standard one. -/
  overrides : Option String := none
  deriving DecidableEq, Repr

namespace Config

/-- The name of the index file if no other is given. -/
def indexFile : String := "image.db"

/-- How many workers merge images on a machine that has `available`. -/
def workerCount (c : Config) (available : Nat) : Nat :=
  max (c.workers.getD available) 1

/-- How many seconds a pool is waited for: those of all workers together, in 64 bits. -/
def drainSeconds (c : Config) (available : Nat) : Nat :=
  min (c.secondsPerWorker * c.workerCount available) (UInt64.size - 1)

/-- Until which second of a clock that shows `now` a pool is waited for.  A clock counts seconds in
63 bits; there is no deadline beyond its last one. -/
def deadline? (c : Config) (available now : Nat) : Option Nat :=
  let last := now + c.drainSeconds available
  if last ≤ Int64.maxValue.toInt then some last else none

/-- Where the index of a run lies that writes into `outputDir`. -/
def indexPathFor (c : Config) (outputDir : String) : String :=
  match c.indexPath with
  | some path => path
  | none =>
    match Path.parent outputDir with
    | some above => Path.join above indexFile
    | none => indexFile

/-! ### Settings as text -/

/-- The member of a table as `read` takes it, or the default if there is none. -/
def member {α : Type} (members : Members) (key : String) (default : α)
    (read : Value → Option α) : Option α :=
  match members.lookup key with
  | none => some default
  | some v => read v

/-- A number that is not negative. -/
def readNat : Value → Option Nat
  | .integer (.ofNat n) => some n
  | _ => none

/-- A truth value. -/
def readBool : Value → Option Bool
  | .bool b => some b
  | _ => none

/-- A text. -/
def readText : Value → Option String
  | .string s => some s
  | _ => none

/-- A list of texts. -/
def readTexts : Value → Option (List String)
  | .array items => items.mapM readText
  | .tables items => items.mapM readText
  | _ => none

/-- The two lists of patterns, from a table with these members or from a list of the two in order.
A date has no members that count. -/
def readPrecedence : Value → Option Precedence
  | .table _ members => do
    let preferred ← member members "preferred" ({} : Precedence).preferred readTexts
    let deferred ← member members "deferred" ({} : Precedence).deferred readTexts
    return ⟨preferred, deferred⟩
  | .array items | .tables items => do
    let preferred ← match items[0]? with
      | some v => readTexts v
      | none => some ({} : Precedence).preferred
    let deferred ← match items[1]? with
      | some v => readTexts v
      | none => some ({} : Precedence).deferred
    return ⟨preferred, deferred⟩
  | .date => some {}
  | _ => none

/-- The settings that the members of a document give.  Other members are left out of account. -/
def ofMembers (members : Members) : Option Config := do
  let workers ← member members "workers" none fun v => (readNat v).map fun n => some (max n 1)
  let force ← member members "force" false readBool
  let quantize ← member members "quantize" false readBool
  let seconds ← member members "per_worker_timeout_secs" 30 readNat
  let nameKeys ← member members "name_keys" false readBool
  let indexPath ← member members "index_path" none fun v => (readText v).map some
  let precedence ← member members "precedence" {} readPrecedence
  let overrides ← member members "overrides" none fun v => (readText v).map some
  return {
    workers := workers
    force := force
    quantize := quantize
    secondsPerWorker := seconds
    nameKeys := nameKeys
    indexPath := indexPath
    precedence := precedence
    overrides := overrides }

/-- The settings that a text spells. -/
def parse (text : String) : Except Error Config :=
  match (Toml.parse text).bind ofMembers with
  | some c => .ok c
  | none => .error .config

end Config

end CharacterArt
