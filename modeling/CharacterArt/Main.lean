import CharacterArt.CommandLine.Session
import CharacterArt.Toolchain.Substitute

/-!
# The program

Reads the paths of the files that it may use from its input, one a line and relative to the working
directory, does what its arguments ask for, and writes the files that have changed.

## Main Definitions

* `loadFiles`, `saveFiles` — files into a disk, and the changes of a disk into files
* `main` — the program
-/

namespace CharacterArt

/-- The lines of an input. -/
partial def inputLines (input : IO.FS.Stream) : IO (List String) := do
  let line ← input.getLine
  if line.isEmpty then return []
  else return Text.trim line :: (← inputLines input)

/-- Put files into a disk. -/
def loadFiles : List String → Files → IO Files
  | [], d => return d
  | path :: rest, d => do
    let bytes ← IO.FS.readBinFile path
    let content := Content.ofBytes bytes.toList
    match (Files.makeDirs d ((Path.parent path).getD "")).toOption with
    | none => loadFiles rest d
    | some d => loadFiles rest ((d.write path content).toOption.getD d)

/-- Whether the bytes of a content tell all of it. -/
def isKept (content : Content) : Bool :=
  match content with
  | .index s => ((Index.Store.ofBytes? s.toBytes).map Index.Store.imageCount) == some s.imageCount
  | _ => true

/-- Write the files of a disk that another one does not have or has with other bytes. -/
def saveFiles (before after : Files) : IO Unit :=
  (after.filesBelow []).forM fun (l, content) => do
    let path := String.intercalate "/" l
    let bytes := content.toBytes
    if !isKept content then throw (IO.userError ("index does not fit into " ++ path))
    if (Files.readBytes before path).toOption ≠ some bytes then
      if 1 < l.length then IO.FS.createDirAll (String.intercalate "/" l.dropLast)
      IO.FS.writeBinFile path (ByteArray.mk bytes.toArray)

end CharacterArt

open CharacterArt in
/-- The program. -/
def main (args : List String) : IO UInt32 := do
  let files ← loadFiles (← inputLines (← IO.getStdin)) {}
  let installed (program : String) : Option Substitute.Tool :=
    [Substitute.Tool.magick, .pngquant].find? fun t => t.label == program
  let (outcome, w) :=
    CommandLine.run (Programs.substitutes installed none) 1 args ⟨files, []⟩
  saveFiles files w.disk
  outcome.lines.forM IO.println
  outcome.error.forM fun message => IO.eprintln ("Error: " ++ message)
  return outcome.status.toUInt32
