import CharacterArt.Asset
import CharacterArt.Config
import CharacterArt.Text.Split

/-!
# Arguments of the command line

## Main Definitions

* `OptionForm`, `occurrences?` — the options of a command, and those that arguments give
* `Command`, `Request` — what the program is asked to do
* `Request.ofArguments` — the request of a list of arguments

## Design Notes

An option has a long name and perhaps a letter.  Its value stands in the next argument or in the
same one, behind an equals sign or right behind the letter.  An argument that starts with a dash is
no value unless it is just a dash.  No command takes arguments that are not options.
-/

namespace CharacterArt.CommandLine

/-- An option of a command. -/
structure OptionForm where
  long : String
  letter : Option Char := none
  takesValue : Bool := true
  deriving DecidableEq, Repr

/-- What an argument gives: options with their values, and the option whose value is still to
come. -/
structure Given where
  options : List (String × String) := []
  pending : Option String := none
  deriving DecidableEq, Repr

/-- Whether an argument is no value. -/
def isOption (arg : String) : Bool :=
  match arg.toList with
  | '-' :: _ :: _ => true
  | _ => false

/-- What an argument with a long name gives. -/
def longOption? (forms : List OptionForm) (body : List Char) : Option Given := do
  let name := String.ofList (body.takeWhile (· != '='))
  let form ← forms.find? (·.long == name)
  match form.takesValue, body.dropWhile (· != '=') with
  | true, [] => return { pending := some form.long }
  | true, _ :: value => return { options := [(form.long, String.ofList value)] }
  | false, [] => return { options := [(form.long, "")] }
  | false, _ :: _ => none

/-- What an argument with letters gives. -/
def letterOptions? (forms : List OptionForm) : List Char → Option Given
  | [] => some {}
  | c :: rest => do
    let form ← forms.find? (·.letter == some c)
    if form.takesValue then
      match rest with
      | [] => return { pending := some form.long }
      | '=' :: value => return { options := [(form.long, String.ofList value)] }
      | value => return { options := [(form.long, String.ofList value)] }
    else
      let more ← letterOptions? forms rest
      return { more with options := (form.long, "") :: more.options }

/-- What an argument gives. -/
def given? (forms : List OptionForm) (arg : String) : Option Given :=
  match arg.toList with
  | '-' :: '-' :: c :: body => longOption? forms (c :: body)
  | '-' :: c :: letters => if c = '-' then none else letterOptions? forms (c :: letters)
  | _ => none

/-- The options that arguments give, in order, with their values. -/
def occurrences? (forms : List OptionForm) : List String → Option (List (String × String))
  | [] => some []
  | ["--"] => some []
  | arg :: rest => do
    let g ← given? forms arg
    match g.pending, rest with
    | none, rest => return g.options ++ (← occurrences? forms rest)
    | some _, [] => none
    | some name, value :: rest =>
      if isOption value then none
      else return g.options ++ (name, value) :: (← occurrences? forms rest)

/-! ### Values -/

/-- A number that is not negative. -/
def readNat? (cs : List Char) : Option Nat :=
  if cs.isEmpty || !cs.all Char.isDigit then none
  else some (cs.foldl (fun n c => n * 10 + (c.toNat - '0'.toNat)) 0)

/-- A number of an object. -/
def readId? (text : String) : Option PathId := do
  let n : Int ← match text.toList with
    | '-' :: cs => (readNat? cs).map fun n => -(n : Int)
    | '+' :: cs => (readNat? cs).map Int.ofNat
    | cs => (readNat? cs).map Int.ofNat
  if Int64.minValue.toInt ≤ n ∧ n ≤ Int64.maxValue.toInt then return Int64.ofInt n else none

/-- A number of workers. -/
def readCount? (text : String) : Option Nat := do
  let n ← match text.toList with
    | '+' :: cs => readNat? cs
    | cs => readNat? cs
  if n < UInt64.size then return n else none

/-- A path, which has to have a character. -/
def readPath? (text : String) : Option String :=
  if text.isEmpty then none else some text

/-- The values of an option. -/
def valuesOf (options : List (String × String)) (long : String) : List String :=
  (options.filter (·.1 == long)).map Prod.snd

/-- The value of an option that is given at most once. -/
def optional? {α : Type} (options : List (String × String)) (long : String)
    (read : String → Option α) : Option (Option α) :=
  match valuesOf options long with
  | [] => some none
  | [value] => (read value).map some
  | _ => none

/-- The value of an option that is given exactly once. -/
def required? {α : Type} (options : List (String × String)) (long : String)
    (read : String → Option α) : Option α :=
  (optional? options long read).bind id

/-- Whether an option without a value is given, which it is at most once. -/
def switch? (options : List (String × String)) (long : String) : Option Bool :=
  (optional? options long some).map Option.isSome

/-! ### Commands -/

/-- What the program can do. -/
inductive Command where
  /-- Bring the index up to date. -/
  | sync (bundles index : String)
  /-- Extract the images of a file of requirements. -/
  | extract (bundles output requirements : String) (config index : Option String)
      (workers : Option Nat) (force quantize nameKeys : Bool) (overrides : Option String)
  /-- Look objects up by number or name. -/
  | lookup (bundles index : String) (ids : List PathId) (name : Option String)
      (kind : AssetKind)
  deriving DecidableEq, Repr

/-- The option that asks for help. -/
def helpForm : OptionForm := ⟨"help", some 'h', false⟩

/-- The options of the command that brings the index up to date. -/
def syncForms : List OptionForm :=
  [⟨"bundles", some 'b', true⟩, ⟨"index", some 'i', true⟩, helpForm]

/-- The options of the command that extracts. -/
def extractForms : List OptionForm :=
  [⟨"bundles", some 'b', true⟩, ⟨"output", some 'o', true⟩, ⟨"descriptors", some 'd', true⟩,
    ⟨"config", some 'c', true⟩, ⟨"index", none, true⟩, ⟨"workers", some 'j', true⟩,
    ⟨"force", none, false⟩, ⟨"quantize", none, false⟩, ⟨"name-keys", none, false⟩,
    ⟨"overrides", none, true⟩, ⟨"quiet", some 'q', false⟩, helpForm]

/-- The options of the command that looks objects up. -/
def lookupForms : List OptionForm :=
  [⟨"bundles", some 'b', true⟩, ⟨"index", some 'i', true⟩, ⟨"path-id", none, true⟩,
    ⟨"name", none, true⟩, ⟨"sprite", none, false⟩, helpForm]

/-- The command that brings the index up to date. -/
def syncOf? (options : List (String × String)) : Option Command := do
  let bundles ← required? options "bundles" readPath?
  let index ← optional? options "index" readPath?
  return .sync bundles (index.getD Config.indexFile)

/-- The command that extracts. -/
def extractOf? (options : List (String × String)) : Option Command := do
  let bundles ← required? options "bundles" readPath?
  let output ← required? options "output" readPath?
  let requirements ← required? options "descriptors" readPath?
  let config ← optional? options "config" readPath?
  let index ← optional? options "index" readPath?
  let workers ← optional? options "workers" readCount?
  let force ← switch? options "force"
  let quantize ← switch? options "quantize"
  let nameKeys ← switch? options "name-keys"
  let overrides ← optional? options "overrides" readPath?
  let _ ← switch? options "quiet"
  return .extract bundles output requirements config index workers force quantize nameKeys overrides

/-- The command that looks objects up.  It takes numbers or a name, not both. -/
def lookupOf? (options : List (String × String)) : Option Command := do
  let bundles ← required? options "bundles" readPath?
  let index ← optional? options "index" readPath?
  let ids ← (valuesOf options "path-id").mapM readId?
  let name ← optional? options "name" some
  let sprite ← switch? options "sprite"
  if !ids.isEmpty && name.isSome then none
  else
    return .lookup bundles (index.getD Config.indexFile) ids name
      (if sprite then .sprite else .texture)

/-- What the program is asked to do. -/
inductive Request where
  | run (command : Command)
  | version
  | help
  /-- The arguments make no sense. -/
  | misuse
  deriving DecidableEq, Repr

namespace Request

/-- The request of the options of a command. -/
def ofOptions (read : List (String × String) → Option Command)
    (options : Option (List (String × String))) : Request :=
  match options with
  | none => misuse
  | some options =>
    if (valuesOf options helpForm.long).isEmpty then
      match read options with
      | some command => run command
      | none => misuse
    else help

/-- The request of the arguments behind the one that asks for help: one command, or none. -/
def ofHelpTopics : List String → Request
  | [] => help
  | [topic] => if ["sync", "extract", "lookup", "help"].contains topic then help else misuse
  | _ => misuse

/-- The request of a list of arguments. -/
def ofArguments : List String → Request
  | [] => misuse
  | first :: rest =>
    match first with
    | "sync" => ofOptions syncOf? (occurrences? syncForms rest)
    | "extract" => ofOptions extractOf? (occurrences? extractForms rest)
    | "lookup" => ofOptions lookupOf? (occurrences? lookupForms rest)
    | "help" => ofHelpTopics rest
    | "--help" => help
    | "--version" => version
    | _ =>
      match first.toList with
      | '-' :: 'V' :: _ => version
      | '-' :: 'h' :: _ => help
      | _ => misuse

end Request

end CharacterArt.CommandLine
