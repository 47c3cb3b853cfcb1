import CharacterArt.CommandLine.Arguments
import CharacterArt.Extraction
import CharacterArt.Requirement.Document
import CharacterArt.Toolchain.External

/-!
# Commands

What the commands do to files, and what they print.

## Main Definitions

* `Failure` — why a command fails
* `Console`, `Session` — the files with the lines printed so far, and parts of a command
* `Command.run` — a command
* `Outcome`, `run` — what a list of arguments leads to
-/

namespace CharacterArt.CommandLine

/-- Why a command fails. -/
inductive Failure where
  | error (e : Error)
  /-- There is no index to look things up in. -/
  | noIndex (path : String)
  /-- It is not said what to look up. -/
  | nothingToLookUp
  /-- The command breaks off. -/
  | broke (message : String)
  deriving DecidableEq, Repr

/-- A failure in words. -/
def Failure.message : Failure → String
  | error e => e.message
  | noIndex path => "no index at " ++ path ++ "; run `gfunpack sync` first"
  | nothingToLookUp => "give --path-id or --name"
  | broke message => message

/-- The failure that a stop of the tools leads to. -/
def Failure.ofStop : Stop → Failure
  | .failed e => error e
  | .broke message => broke message
  | .stalled => broke "the tool does not end"

/-- The files, and what was printed so far. -/
structure Console (σ : Type) where
  world : World σ
  lines : List String := []

/-- A part of a command, which may fail. -/
abbrev Session (σ α : Type) := ExceptT Failure (StateM (Console σ)) α

namespace Session

variable {σ α : Type}

/-- Print a line. -/
def print (line : String) : Session σ Unit :=
  modify fun c => { c with lines := c.lines ++ [line] }

/-- Print which part of the work begins. -/
def announce (step total : Nat) (text : String) : Session σ Unit :=
  print ("[" ++ toString step ++ "/" ++ toString total ++ "] " ++ text)

/-- Go on unless there is an error. -/
def ofExcept (r : Except Error α) : Session σ α :=
  match r with
  | .ok a => return a
  | .error e => throw (.error e)

/-- Look at the files. -/
def look (f : Files → Except Error α) : Session σ α := do
  ofExcept (f (← get).world.disk)

/-- Put other files in the place of those that there are. -/
def putFiles (d : Files) : Session σ Unit :=
  modify fun c => { c with world := { c.world with disk := d } }

/-- Do something with the files and the tools. -/
def perform (f : World σ → Except Failure α × World σ) : Session σ α := do
  let (result, w) := f (← get).world
  modify fun c => { c with world := w }
  match result with
  | .ok a => return a
  | .error failure => throw failure

/-- Open the index of a path, which is made if there is none. -/
def openIndex (path : String) : Session σ Index.Handle := do
  let (result, d) := Index.Handle.openPath (← get).world.disk path
  putFiles d
  ofExcept result

/-- What an open index holds. -/
def contents (h : Index.Handle) : Session σ Index.Store :=
  look h.store

end Session

open Session

/-! ### The index -/

/-- Bring the index up to date. -/
def syncIndex {σ : Type} (bundles index : String) : Session σ Unit := do
  announce 1 2 ("Scanning " ++ bundles ++ "...")
  let corpus ← look fun d => Corpus.scan d bundles
  print ("Found " ++ toString corpus.size ++ " bundles")
  announce 2 2 "Updating index..."
  let (result, h, d) := (← openIndex index).sync (← get).world.disk corpus
  putFiles d
  let stats ← ofExcept result
  let store ← contents h
  print (toString stats.added ++ " added, " ++ toString stats.removed ++ " removed, " ++
    toString stats.unchanged ++ " unchanged (" ++ toString stats.recordsInserted ++
    " records inserted, " ++ toString stats.recordsDeleted ++ " deleted)")
  print ("Index holds " ++ toString store.imageCount ++ " images from " ++
    toString store.bundleCount ++ " bundles")

/-- A text with blanks before it, up to a width. -/
def padLeft (width : Nat) (text : String) : String :=
  String.ofList (List.replicate (width - text.length) ' ') ++ text

/-- A text with blanks after it, up to a width. -/
def padRight (width : Nat) (text : String) : String :=
  text ++ String.ofList (List.replicate (width - text.length) ' ')

/-- The lines for a record. -/
def recordLines (r : Record) : List String :=
  let line := padLeft 20 (toString r.pathId.toInt) ++ "  " ++ padRight 10 r.kind.label ++ " " ++
    padRight 40 r.name ++ " " ++ toString r.width.toNat ++ "x" ++ toString r.height.toNat ++ "  " ++
    r.bundle
  if r.container.isEmpty then [line] else [line, padLeft 20 "" ++ "  " ++ r.container]

/-- Print a record. -/
def printRecord {σ : Type} (r : Record) : Session σ Unit :=
  (recordLines r).forM print

/-- Look objects up by number. -/
def lookupIds {σ : Type} (store : Index.Store) (ids : List PathId) (kind : AssetKind) :
    Session σ Unit := do
  if ids.isEmpty then throw .nothingToLookUp
  let records ← ofExcept (store.lookup ids kind)
  records.forM printRecord
  let missing := ids.filter fun id => !records.any fun r => r.pathId == id
  if !missing.isEmpty then
    print ("Not indexed as " ++ kind.label ++ ": " ++
      String.intercalate ", " (missing.map fun id => toString id.toInt))

/-- Look an object up by name. -/
def lookupName {σ : Type} (store : Index.Store) (name : String) (kind : AssetKind) :
    Session σ Unit := do
  match ← ofExcept (store.findByName? name kind) with
  | some record => printRecord record
  | none => print ("No " ++ kind.label ++ " named " ++ name)

/-- Look objects up. -/
def lookupObjects {σ : Type} (index : String) (ids : List PathId) (name : Option String)
    (kind : AssetKind) : Session σ Unit := do
  if !(← get).world.disk.isFile index then throw (.noIndex index)
  let store ← contents (← openIndex index)
  match name with
  | some name => lookupName store name kind
  | none => lookupIds store ids kind

/-! ### Extractions -/

/-- The settings of a file, or the defaults. -/
def settings {σ : Type} (path : Option String) : Session σ Config :=
  match path with
  | none => return {}
  | some path => do ofExcept (Config.parse (← look fun d => Files.readText d path))

/-- The lines for the report of an extraction. -/
def reportLines (r : ExtractionReport) (resultPath : String) : List String :=
  let counts := [
    "Index: " ++ toString r.sync.added ++ " added, " ++ toString r.sync.removed ++ " removed, " ++
      toString r.sync.unchanged ++ " unchanged; " ++ toString r.bundlesDecoded ++
      " bundles decoded",
    "Images: " ++ toString r.written ++ " written, " ++ toString r.cached ++ " cached, " ++
      toString r.failed ++ " failed, " ++ toString r.reconciled.resolved.length ++ " reconciled",
    toString r.images.size ++ " keys -> " ++ resultPath]
  if r.diagnostics.isEmpty then counts
  else
    counts ++ [""] ++
      (Diagnostics.summary r.diagnostics).map (fun (kind, n) =>
        "! " ++ toString n ++ " " ++ kind.label) ++
      r.diagnostics.map fun d => "  " ++ d.message

/-- The name of the file with the result map. -/
def resultFile : String := "images.json"

/-- Extract images with given settings. -/
def extractWith {σ : Type} (programs : Programs σ) (cores : Nat) (bundles output requirements : String)
    (config : Config) : Session σ Unit := do
  announce 1 3 "Checking toolchain..."
  let tools ← perform fun w =>
    let (result, w) := ExternalTools.locate programs config.quantize w
    (result.mapError .error, w)
  let rs ← ofExcept (Requirements.parse (← look fun d => Files.readText d requirements))
  print (toString rs.length ++ " descriptors, " ++ toString (Requirements.ids rs).length ++
    " path ids, " ++ toString (config.workerCount cores) ++ " workers")
  announce 2 3 "Extracting images..."
  let x : Extraction := { bundleDir := bundles, outputDir := output, config := config, cores := cores }
  let (report, _) ← perform fun w =>
    let (result, w) := x.run (tools.toolchain programs) rs w
    (result.mapError Failure.ofStop, w)
  announce 3 3 "Writing result map..."
  putFiles (← look fun d => Files.makeDirs d output)
  let path := Path.join output resultFile
  putFiles (← look fun d => Files.writeText d path report.resultText)
  (reportLines report path).forM print

/-- What a command does. -/
def Command.run {σ : Type} (programs : Programs σ) (cores : Nat) : Command → Session σ Unit
  | sync bundles index => syncIndex bundles index
  | lookup _ index ids name kind => lookupObjects index ids name kind
  | extract bundles output requirements config index workers force quantize nameKeys overrides => do
    let c ← settings config
    extractWith programs cores bundles output requirements { c with
      indexPath := index.or c.indexPath
      workers := (workers.map fun n => max n 1).or c.workers
      overrides := overrides.or c.overrides
      force := c.force || force
      quantize := c.quantize || quantize
      nameKeys := c.nameKeys || nameKeys }

/-! ### The program -/

/-- What a list of arguments leads to. -/
structure Outcome where
  lines : List String := []
  status : Nat := 0
  /-- What went wrong, if the command ran and failed without breaking off. -/
  error : Option String := none
  deriving DecidableEq, Repr

/-- What the program calls itself. -/
def versionLine : String := "gfunpack 0.1.0"

/-- Do what arguments ask for. -/
def run {σ : Type} (programs : Programs σ) (cores : Nat) (args : List String) (w : World σ) :
    Outcome × World σ :=
  match Request.ofArguments args with
  | .misuse => ({ status := 2 }, w)
  | .help => ({}, w)
  | .version => ({ lines := [versionLine] }, w)
  | .run command =>
    let (result, console) := (command.run programs cores).run.run ⟨w, []⟩
    match result with
    | .ok () => ({ lines := console.lines }, console.world)
    | .error (.broke _) => ({ lines := console.lines, status := 101 }, console.world)
    | .error f => ({ lines := console.lines, status := 1, error := some f.message }, console.world)

end CharacterArt.CommandLine
