import CharacterArt.Content
import CharacterArt.Index.Address
import CharacterArt.Index.Definition.Parser
import CharacterArt.Index.Sync

/-!
# Open indices

## Main Definitions

* `Handle` — an open index database: in memory, in a file, or in a file that was taken away
* `Handle.openPath` — the database that a path or an address leads to, which is made if there is
  none
* `Handle.store` — what the database holds now
* `Handle.sync` — bring the database in step with a corpus
* `Handle.release` — what becomes of an open database when something is taken away
* `Index.fill` — rows put into the database of a file, whose table is made to a definition

## Design Notes

A database lies in the file as it is, so whatever else is done to the file shows.  A file of one
byte at most is a database without tables.  While something is written, a journal lies beside the
file; a directory in its place, or in that of the log, makes the database unusable.  Operations give
the disk back even if they fail, since what they did before stays.
-/

namespace CharacterArt.Index

/-- An open index database. -/
inductive Handle where
  | inMemory (s : Store)
  | inFile (place : Location) (isWritable : Bool)
  /-- The file was taken away from its place, and the database, if it is one, can only be read. -/
  | orphaned (place : Location) (s : Option Store)

/-! ### Databases in files -/

/-- An error of the database. -/
def refused {α : Type} (reason : String) : Except Error α :=
  .error (.database reason)

/-- A place beside a file. -/
def beside (place : Location) (ending : String) : Location :=
  place.dropLast ++ [place.getLast?.getD "" ++ ending]

/-- What the journal of a database is called. -/
def journalEnding : String := "-journal"

/-- What the log of a database is called. -/
def logEnding : String := "-wal"

/-- Whether a directory stands where the journal or the log of a database would be. -/
def isBlocked (d : Files) (place : Location) : Bool :=
  [journalEnding, logEnding].any fun ending =>
    match d.node? (beside place ending) with
    | some .directory => true
    | _ => false

/-- Whether the journal of a database can have its name. -/
def hasJournal (place : Location) : Bool :=
  match (beside place journalEnding).getLast? with
  | some name => decide (name.utf8ByteSize ≤ Disk.maxNameSize)
  | none => false

/-- The database in a file, or `none` if the file is one without tables. -/
def storeAt (d : Files) (place : Location) : Except Error (Option Store) :=
  match d.node? place with
  | some (.file (.index s)) => if isBlocked d place then refused "disk I/O error" else .ok (some s)
  | some (.file (.bytes b)) =>
    if b.length ≤ 1 then .ok none else refused "file is not a database"
  | _ => refused "file is not a database"

/-- Put a database into its file. -/
def putStore (d : Files) (place : Location) (s : Store) : Files :=
  d.put place (.file (.index s))

/-! ### Opening -/

/-- Open the file of a database, which is made if that may be done. -/
def openFile (d : Files) (place : Location) (access : Access) : Except Error Files :=
  if place.any fun name => decide (Disk.maxNameSize < name.utf8ByteSize) then
    refused "unable to open database file"
  else
    match d.node? place.dropLast, d.node? place with
    | some .directory, some (.file _) => .ok d
    | some .directory, none =>
      if access = .create then .ok (d.put place (.file (.bytes [])))
      else refused "unable to open database file"
    | _, _ => refused "unable to open database file"

/-- Set up a database: make the tables and trees that it lacks, if the columns are there. -/
def setUp (s : Option Store) (isWritable : Bool) (path : String) :
    Except Error Unit × Option Store :=
  match s with
  | none =>
    if isWritable then (.ok (), some {}) else (refused "attempt to write a readonly database", none)
  | some s =>
    if s.stage = .images ∧ !isWritable then
      (refused "attempt to write a readonly database", some s)
    else
      let s := if s.stage = .images then { s with stage := .tables } else s
      if !s.missingColumns.isEmpty then (.error (.indexCorrupt path s.missingColumns), some s)
      else if s.stage = .complete then (.ok (), some s)
      else if isWritable then (.ok (), some { s with stage := .complete })
      else (refused "attempt to write a readonly database", some s)

/-- Whether the database at a place can be written to. -/
def canWrite (d : Files) (place : Location) (isWritable : Bool) : Bool :=
  isWritable && hasJournal place && !isBlocked d place

namespace Handle

/-- Open the database in a file and set it up. -/
def openPlace (d : Files) (path : String) (place : Location) (a : Address) :
    Except Error Handle × Files :=
  match openFile d place a.access with
  | .error e => (.error e, d)
  | .ok d =>
    match storeAt d place with
    | .error e => (.error e, d)
    | .ok s =>
      let (result, s) := setUp s (canWrite d place a.isWritable) path
      let d := (s.map (putStore d place)).getD d
      (result.map fun () => .inFile place a.isWritable, d)

/-- Open the database that a path or an address leads to, which is made if there is none.  The
directories of the path are made first, as it is spelled. -/
def openPath (d : Files) (path : String) : Except Error Handle × Files :=
  match Files.makeDirs d ((Path.parent path).getD "") with
  | .error e => (.error e, d)
  | .ok d =>
    match Address.ofText? path with
    | none => (refused "no such address", d)
    | some a =>
      if a.isTransient then
        if a.isWritable then (.ok (.inMemory {}), d)
        else (refused "attempt to write a readonly database", d)
      else
        match a.place? d.cwd with
        | none => (refused "unable to open database file", d)
        | some place => openPlace d path place a

/-! ### Reading and writing -/

/-- What an open database holds now. -/
def store (h : Handle) (d : Files) : Except Error Store :=
  match h with
  | inMemory s => .ok s
  | inFile place _ =>
    match storeAt d place with
    | .ok (some s) => .ok s
    | .ok none => refused "no such table"
    | .error e => .error e
  | orphaned place s =>
    match s with
    | some s => if isBlocked d place then refused "disk I/O error" else .ok s
    | none => refused "file is not a database"

/-- Whether an open database can be written to. -/
def isWritable (h : Handle) (d : Files) : Bool :=
  match h with
  | inMemory _ => true
  | inFile place isWritable => canWrite d place isWritable
  | orphaned .. => false

/-- Put another database in the place of an open one. -/
def put (h : Handle) (d : Files) (s : Store) : Handle × Files :=
  match h with
  | inMemory _ => (inMemory s, d)
  | inFile place _ => (h, putStore d place s)
  | orphaned .. => (h, d)

/-- Bring an open database in step with a corpus. -/
def sync (h : Handle) (d : Files) (c : Corpus) : Except Error SyncStats × Handle × Files :=
  match h.store d with
  | .error e => (.error e, h, d)
  | .ok s =>
    if h.isWritable d then
      match s.sync (tablesOn d) c with
      | .error e => (.error e, h, d)
      | .ok (s, stats) => if stats.isNoop then (.ok stats, h, d) else (.ok stats, h.put d s)
    else (s.syncFixed (tablesOn d) c, h, d)

/-- What becomes of an open database when the node at a place is taken away. -/
def release (h : Handle) (d : Files) (target : Location) : Handle :=
  match h with
  | inFile place _ =>
    if target.isPrefixOf place then
      orphaned place (match d.node? place with
        | some (.file (.index s)) => some s
        | _ => none)
    else h
  | h => h

end Handle

/-! ### Databases made to a definition -/

/-- Make the table of images of a file to definitions of its columns. -/
def makeTable (d : Files) (place : Location) (columns : List String) : Except Error Files :=
  match storeAt d place with
  | .error e => .error e
  | .ok (some _) => refused "table image already exists"
  | .ok none =>
    match Table.ofDefinitions? columns with
    | none => refused "malformed definition"
    | some t =>
      if canWrite d place true then .ok (putStore d place { table := t, stage := .images })
      else refused "disk I/O error"

/-- Put one more row into the table of images of a file. -/
def putRow (d : Files) (place : Location) (r : Row) : Except Error Files :=
  match storeAt d place with
  | .error e => .error e
  | .ok none => refused "no such table: image"
  | .ok (some s) =>
    match s.table.insert s.images r with
    | some images =>
      if s.stage = .images ∧ !s.table.references.isEmpty ∨ !s.refersWell true images then
        refused "FOREIGN KEY constraint failed"
      else if canWrite d place true then .ok (putStore d place { s with images := images })
      else refused "disk I/O error"
    | none => refused "constraint failed"

/-- Put rows into the table of images of a file, one after another until one is refused. -/
def putRows (d : Files) (place : Location) : List Row → Except Error Unit × Files
  | [] => (.ok (), d)
  | r :: rest =>
    match putRow d place r with
    | .error e => (.error e, d)
    | .ok d => putRows d place rest

/-- Put rows into the database of a file, whose table of images is first made to definitions of its
columns, if there are any. -/
def fill (d : Files) (path : String) (columns : List String) (rows : List Row) :
    Except Error Unit × Files :=
  match (Address.ofText? path).bind fun a => a.place? d.cwd with
  | none => (refused "unable to open database file", d)
  | some place =>
    match openFile d place .create with
    | .error e => (.error e, d)
    | .ok d =>
      if columns.isEmpty then putRows d place rows
      else
        match makeTable d place columns with
        | .error e => (.error e, d)
        | .ok d => putRows d place rows

end CharacterArt.Index
