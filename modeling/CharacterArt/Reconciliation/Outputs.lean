import CharacterArt.Content
import CharacterArt.Diagnostic
import CharacterArt.Reconciliation.Stem

/-!
# The tree of outputs

## Main Definitions

* `OutputFile`, `outputsIn` — the pictures below a directory, in the order of a walk
* `unreferenced` — the pictures that no result key points to
-/

namespace CharacterArt.Reconciliation

/-- A picture below the directory of outputs. -/
structure OutputFile where
  /-- The path below that directory. -/
  relative : String
  path : String
  key : StemKey
  deriving DecidableEq, Repr

/-- Whether a name has the extension of pictures. -/
def isPictureName (name : String) : Bool :=
  match Path.extension name with
  | some e => e.map Char.toLower == "png"
  | none => false

/-- The picture that a file below a directory is, if its name is that of one. -/
def outputFile? (root : String) (l : Location) : Option OutputFile :=
  let name := (l.getLast?).getD ""
  let relative := String.intercalate "/" l
  if isPictureName name then
    some ⟨relative, Path.join root relative, stemKey ((Path.stem name).getD "")⟩
  else none

/-- The pictures below a directory, in the order of a walk. -/
def outputsIn (d : Files) (root : String) : List OutputFile :=
  match d.resolve root with
  | .error _ => []
  | .ok l => (d.filesBelow l).filterMap fun (below, _) => outputFile? root below

/-- The pictures below a directory that are not among those that result keys point to. -/
def unreferenced (d : Files) (root : String) (referenced : List String) : Diagnostics :=
  ((outputsIn d root).filter fun o => !referenced.contains o.relative).map fun o =>
    ⟨.unreferencedOutput, o.relative, "no result key points to this file"⟩

end CharacterArt.Reconciliation
