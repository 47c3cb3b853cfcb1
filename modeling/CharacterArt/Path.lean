import CharacterArt.Text.Split

/-!
# Paths

Paths of files as texts: components separated by slashes, resolved by spelling alone.

## Main Definitions

* `Path.segments` — what stands between the slashes
* `Path.Component`, `Path.components` — the steps that a path describes
* `Path.join`, `Path.parent` — a path below another, and the path above
* `Path.fileName`, `Path.stem`, `Path.extension` — the last component and its two parts
* `Path.withExtension` — a path whose last component has another extension

## Design Notes

Empty segments and the segment `.` describe no step, except a `.` that opens a relative path.  A
path keeps its spelling: `parent` cuts the last step and the idle segments around it and leaves
the front as it is.
-/

namespace CharacterArt.Path

/-- What stands between the slashes of a text. -/
def segments (path : List Char) : List (List Char) :=
  Text.split '/' path

/-- Whether a path starts from the root. -/
def isAbsolute (path : String) : Bool :=
  path.toList.head? == some '/'

/-- A step of a path. -/
inductive Component where
  | root
  | current
  | parent
  | normal (name : String)
  deriving DecidableEq, Repr

/-- Whether a segment describes no step. -/
def isIdle (s : List Char) : Bool :=
  s.isEmpty || s == ['.']

/-- The step that a segment describes. -/
def Component.ofSegment (s : List Char) : Component :=
  if s = ['.', '.'] then .parent else .normal (String.ofList s)

/-- The steps that a path describes. -/
def components (path : String) : List Component :=
  let parts := segments path.toList
  let front := match parts with
    | [] :: _ :: _ => [Component.root]
    | ['.'] :: _ => [Component.current]
    | _ => []
  front ++ (parts.filter fun s => !isIdle s).map Component.ofSegment

/-- A path below another one.  An absolute path replaces it. -/
def join (base path : String) : String :=
  if isAbsolute path then path
  else if base.isEmpty || base.toList.getLast? == some '/' then base ++ path
  else base ++ "/" ++ path

/-- Segments, last first, without those at the end that describe no step.  The first segment is
never left out: it tells a path from the root and an opening `.` apart from other paths. -/
def dropIdle : List (List Char) → List (List Char)
  | s :: t :: more => if isIdle s then dropIdle (t :: more) else s :: t :: more
  | rest => rest

/-- The path above, or none for the root and the empty path. -/
def parent (path : String) : Option String :=
  match dropIdle (segments path.toList).reverse with
  | [] | [[]] => none
  | [_] => some ""
  | _ :: above =>
    match dropIdle above with
    | [[]] => some "/"
    | above => some (String.ofList (Text.joinWith '/' above.reverse))

/-- The last component, if it is a name. -/
def fileName (path : String) : Option String :=
  match (components path).getLast? with
  | some (.normal name) => some name
  | _ => none

/-- A name cut at its last dot: what stands before and what stands after, if there is a dot behind
the first character. -/
def splitDot (name : String) : String × Option String :=
  let back := name.toList.reverse
  match back.dropWhile (· != '.') with
  | _ :: c :: before =>
    (String.ofList (c :: before).reverse, some (String.ofList (back.takeWhile (· != '.')).reverse))
  | _ => (name, none)

/-- The name of a file without its extension. -/
def stem (path : String) : Option String :=
  (fileName path).map fun name => (splitDot name).1

/-- The extension of the name of a file. -/
def extension (path : String) : Option String :=
  (fileName path).bind fun name => (splitDot name).2

/-- A path with another extension of its file. -/
def withExtension (path extension : String) : String :=
  match stem path, parent path with
  | some stem, some above => join above (stem ++ "." ++ extension)
  | _, _ => path

end CharacterArt.Path
