import CharacterArt.Bundle.Writer
import CharacterArt.Content

/-!
# Corpora

A corpus is the bundles of one directory.

## Main Definitions

* `BundleFile`, `Corpus` — a bundle of a directory, and all of them by name
* `Corpus.ofListing`, `Corpus.scan` — the corpus of a listing, and of a directory on a disk
* `Corpus.openBundle`, `Corpus.entries` — a bundle with its table, and the table
* `Corpus.decodeWhere`, `Corpus.decodeOne` — assets of a bundle
* `Bundle.writeFile` — a bundle put into a file

## Design Notes

A file is a bundle if its extension is `ab` in any letter case, and it is called by its name
without that extension.  Of two files with one name the one counts that is listed later.
-/

namespace CharacterArt

open Text (Bytes)

/-- A bundle of a directory. -/
structure BundleFile where
  name : String
  /-- How many bytes the file has, by which changes are noticed. -/
  size : Nat
  path : String
  deriving DecidableEq, Repr

/-- The bundles of a directory. -/
structure Corpus where
  root : String
  files : Std.TreeMap String BundleFile := ∅

namespace Corpus

/-- Whether an extension is that of bundles. -/
def isBundleExtension (extension : String) : Bool :=
  extension.map Char.toLower == "ab"

/-- The bundle that a file of a directory is, if it is one. -/
def bundleFile? (root name : String) (size : Nat) : Option BundleFile :=
  match Path.extension name, Path.stem name with
  | some extension, some stem =>
    if isBundleExtension extension then some ⟨stem, size, Path.join root name⟩ else none
  | _, _ => none

/-- The corpus of the files of a directory, given by their names and sizes. -/
def ofListing (root : String) (listing : List (String × Nat)) : Corpus where
  root := root
  files := (listing.filterMap fun (name, size) => bundleFile? root name size).foldl
    (fun files b => files.insert b.name b) ∅

/-- The bundles of a corpus by name. -/
def bundles (c : Corpus) : List BundleFile :=
  c.files.toList.map Prod.snd

/-- The bundle of a name. -/
def get? (c : Corpus) (name : String) : Option BundleFile :=
  c.files[name]?

/-- How many bundles a corpus has. -/
def size (c : Corpus) : Nat :=
  c.files.size

/-- The corpus of a directory. -/
def scan (d : Files) (root : String) : Except Error Corpus :=
  match d.resolve root with
  | .error _ => .error (.corpusNotFound root)
  | .ok l =>
    match d.node? l with
    | some .directory =>
      .ok (ofListing root ((d.list l).filterMap fun (name, n) =>
        match n with
        | .file content => some (name, content.toBytes.length)
        | .directory => none))
    | _ => .error (.corpusNotFound root)

/-- Read the table of a file. -/
def readBundle (d : Files) (b : BundleFile) : Except Error Bundle := do
  Bundle.ofBytes b.path (← Files.readBytes d b.path)

/-- A bundle with its table. -/
def openBundle (c : Corpus) (d : Files) (name : String) : Except Error Bundle :=
  match c.get? name with
  | none => .error (.bundleNotFound name)
  | some b => readBundle d b

/-- The table of a bundle. -/
def entries (c : Corpus) (d : Files) (name : String) : Except Error (List Bundle.Entry) :=
  (c.openBundle d name).map Bundle.entries

/-- The assets of the entries of a bundle that are images and satisfy `p`. -/
def decodeWhere (c : Corpus) (d : Files) (name : String) (p : Bundle.Entry → Bool) :
    Except Error (List Asset) := do
  let b ← c.openBundle d name
  (b.entries.filter fun e => e.kind?.isSome && p e).mapM b.decode

/-- The asset of the first entry of a kind and a number. -/
def decodeOne (c : Corpus) (d : Files) (name : String) (id : PathId) (kind : AssetKind) :
    Except Error Asset := do
  let b ← c.openBundle d name
  match b.entries.find? fun e => e.pathId == id && e.kind? == some kind with
  | some e => b.decode e
  | none => throw (.objectNotFound name id)

end Corpus

/-- Write a bundle with given objects, and make the directories above it.  If the objects have no
table the file is there but empty. -/
def Bundle.writeFile (d : Files) (path : String) (objects : List Bundle.Packed) :
    Except Error Unit × Files :=
  match d.makeDirs ((Path.parent path).getD "") with
  | .error e => (.error e, d)
  | .ok d =>
    match d.write path (.bytes []) with
    | .error f => (.error (.file f), d)
    | .ok created =>
      match Bundle.encode objects with
      | .error e => (.error e, created)
      | .ok bytes =>
        match d.write path (.bytes bytes) with
        | .error f => (.error (.file f), created)
        | .ok written => (.ok (), written)

end CharacterArt
