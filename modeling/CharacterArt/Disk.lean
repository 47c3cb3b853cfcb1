import CharacterArt.Error
import CharacterArt.Path
import Std.Data.TreeMap.Basic

/-!
# Disks

A disk is a tree of directories and files as a value.  Paths are looked up step by step, so a path
leads somewhere only if every directory on the way exists.

## Main Definitions

* `Location` — a place in the tree: the names from the root to it
* `Node`, `Disk` — directories and files, and the tree of them with a working directory
* `Disk.origin`, `Disk.resolve` — where a path starts, and the place that it leads to
* `Disk.read`, `Disk.write`, `Disk.copy`, `Disk.rename`, `Disk.makeDirs`, `Disk.remove` — operations
* `Disk.filesBelow` — the files below a directory in the order of a walk

## Design Notes

Contents are of any type.  The nodes are ordered by their locations, name by name, which is the
order in which a walk meets them that goes through every directory by name and enters a directory
before its next neighbour.  The root is a directory although no node stands for it.
-/

namespace CharacterArt

/-- A place in a tree of directories: the names from the root to it. -/
abbrev Location := List String

/-- A directory, or a file with its content. -/
inductive Node (α : Type) where
  | directory
  | file (content : α)
  deriving DecidableEq, Repr

/-- A tree of directories and files. -/
structure Disk (α : Type) where
  nodes : Std.TreeMap Location (Node α) := ∅
  /-- Where relative paths start. -/
  cwd : Location := []

namespace Disk

variable {α : Type}

/-- The greatest number of bytes of a name. -/
def maxNameSize : Nat := 255

/-- The greatest number of bytes of a path. -/
def maxPathSize : Nat := 4095

/-- What stands at a location. -/
def node? (d : Disk α) (l : Location) : Option (Node α) :=
  match l with
  | [] => some .directory
  | l => d.nodes[l]?

/-- Put a node at a location. -/
def put (d : Disk α) (l : Location) (n : Node α) : Disk α :=
  { d with nodes := d.nodes.insert l n }

/-! ### Looking up paths -/

/-- Follow one segment of a path from a directory. -/
def follow (d : Disk α) (l : Location) (segment : List Char) : Except FileFault Location :=
  match d.node? l with
  | none => .error .notFound
  | some (.file _) => .error .notADirectory
  | some .directory =>
    if Path.isIdle segment then .ok l
    else if segment = ['.', '.'] then .ok l.dropLast
    else
      let name := String.ofList segment
      if maxNameSize < name.utf8ByteSize then .error .nameTooLong
      else .ok (l ++ [name])

/-- Where a path starts, if it can be used at all. -/
def origin (d : Disk α) (path : String) : Except FileFault Location :=
  if path.isEmpty then .error .notFound
  else if path.toList.contains '\x00' then .error .unusableName
  else if maxPathSize < path.utf8ByteSize then .error .nameTooLong
  else .ok (if Path.isAbsolute path then [] else d.cwd)

/-- The place that a path leads to.  All but the last of its steps have to be directories; nothing
need stand at the place itself. -/
def resolve (d : Disk α) (path : String) : Except FileFault Location :=
  match d.origin path with
  | .ok start => (Path.segments path.toList).foldlM d.follow start
  | .error f => .error f

/-- What stands where a path leads to. -/
def find? (d : Disk α) (path : String) : Option (Node α) :=
  match d.resolve path with
  | .ok l => d.node? l
  | .error _ => none

/-- Whether anything stands where a path leads to. -/
def exists? (d : Disk α) (path : String) : Bool :=
  (d.find? path).isSome

/-- Whether a path leads to a file. -/
def isFile (d : Disk α) (path : String) : Bool :=
  match d.find? path with
  | some (.file _) => true
  | _ => false

/-- Whether a path leads to a directory. -/
def isDirectory (d : Disk α) (path : String) : Bool :=
  match d.find? path with
  | some .directory => true
  | _ => false

/-! ### Reading and writing -/

/-- The content of a file. -/
def read (d : Disk α) (path : String) : Except FileFault α :=
  match d.resolve path with
  | .error f => .error f
  | .ok l =>
    match d.node? l with
    | some (.file content) => .ok content
    | some .directory => .error .isADirectory
    | none => .error .notFound

/-- Write a file, whose directory has to exist. -/
def write (d : Disk α) (path : String) (content : α) : Except FileFault (Disk α) :=
  match d.resolve path with
  | .error f => .error f
  | .ok l =>
    match d.node? l with
    | some .directory => .error .isADirectory
    | _ => .ok (d.put l (.file content))

/-- Copy a file over another one. -/
def copy (d : Disk α) (source target : String) : Except FileFault (Disk α) :=
  match d.read source with
  | .error f => .error f
  | .ok content => d.write target content

/-- Take away what stands at a location and below it. -/
def remove (d : Disk α) (l : Location) : Disk α :=
  { d with nodes := d.nodes.filter fun k _ => !l.isPrefixOf k }

/-- Move a file over another one. -/
def rename (d : Disk α) (source target : String) : Except FileFault (Disk α) := do
  let content ← d.read source
  let l ← d.resolve source
  let m ← d.resolve target
  let d ← d.write target content
  if l = m then return d else return d.remove l

/-- Follow segments from a directory and make a directory wherever nothing stands. -/
def makeAlong (d : Disk α) (l : Location) : List (List Char) → Except FileFault (Disk α)
  | [] => .ok d
  | s :: rest =>
    match d.follow l s with
    | .error f => .error f
    | .ok m =>
      match d.node? m with
      | none => (d.put m .directory).makeAlong m rest
      | some .directory => d.makeAlong m rest
      | some (.file _) => .error (if rest.isEmpty then .alreadyExists else .notADirectory)

/-- The segments of a path that name the directories above it and the path itself.  A path that
ends in `.` needs to lead somewhere, so its last name is left out. -/
def namedSegments (path : String) : List (List Char) :=
  match (Path.segments path.toList).reverse.dropWhile List.isEmpty with
  | ['.'] :: back => ((back.dropWhile Path.isIdle).drop 1).reverse
  | back => back.reverse

/-- Make a directory and those above it that are missing. -/
def makeDirs (d : Disk α) (path : String) : Except FileFault (Disk α) :=
  if path.isEmpty then .ok d
  else
    match d.origin path with
    | .error f => .error f
    | .ok start =>
      match d.makeAlong start (namedSegments path) with
      | .error f => .error f
      | .ok d => if d.isDirectory path then .ok d else .error .notFound

/-! ### Listings -/

/-- The names in a directory and what they stand for, in the order of the names. -/
def list (d : Disk α) (l : Location) : List (String × Node α) :=
  d.nodes.toList.filterMap fun (k, n) =>
    match k.getLast? with
    | some name => if k.dropLast = l then some (name, n) else none
    | none => none

/-- The files below a directory, with the names that lead from it to them, in the order of a
walk. -/
def filesBelow (d : Disk α) (l : Location) : List (Location × α) :=
  d.nodes.toList.filterMap fun (k, n) =>
    match n with
    | .file content => if l.isPrefixOf k then some (k.drop l.length, content) else none
    | .directory => none

end Disk

end CharacterArt
