import CharacterArt.Asset
import CharacterArt.Text.Utf8

/-!
# Errors

What makes an operation fail, and how it is told.  A condition that lets a run finish is a
diagnostic instead.

## Main Definitions

* `FileFault` — why the file system refuses an operation
* `BundleFault` — what is wrong with a bundle
* `ToolFault` — what is wrong with an external tool
* `Error`, `Error.message` — all causes of failure, and their wording
-/

namespace CharacterArt

/-- Why the file system refuses an operation. -/
inductive FileFault where
  | notFound
  | notADirectory
  | isADirectory
  | alreadyExists
  | nameTooLong
  | notEmpty
  | notText
  | unusableName
  /-- The file ends before all that was asked for is read. -/
  | endsEarly
  deriving DecidableEq, Repr

/-- A refusal in words. -/
def FileFault.message : FileFault → String
  | notFound => "No such file or directory (os error 2)"
  | notADirectory => "Not a directory (os error 20)"
  | isADirectory => "Is a directory (os error 21)"
  | alreadyExists => "File exists (os error 17)"
  | nameTooLong => "File name too long (os error 36)"
  | notEmpty => "Directory not empty (os error 39)"
  | notText => "stream did not contain valid UTF-8"
  | unusableName => "file name contained an unexpected NUL byte"
  | endsEarly => "failed to fill whole buffer"

/-- What is wrong with a bundle. -/
inductive BundleFault where
  | headerTruncated
  | tableTooLarge (entries : Nat)
  | tableTruncated (entry : Nat)
  | invalidText (fault : Text.Utf8Fault)
  | rawSize (id : PathId) (raw width height : Nat)
  | pastEnd (id : PathId) (size offset : Nat)
  | overclaimed (id : PathId) (raw compressed : Nat)
  | pixelMismatch (id : PathId)
  | textTooLong (id : PathId) (size : Nat)
  deriving DecidableEq, Repr

/-- A fault of a bundle in words. -/
def BundleFault.message : BundleFault → String
  | headerTruncated => "header truncated"
  | tableTooLarge n => "object table too large: " ++ toString n ++ " entries"
  | tableTruncated i => "object table truncated at entry " ++ toString i
  | invalidText f => "invalid UTF-8 string: " ++ f.message
  | rawSize id raw w h =>
    "payload of " ++ toString id.toInt ++ " is " ++ toString raw ++ " bytes, expected " ++
      toString (w * h * 4) ++ " for " ++ toString w ++ "x" ++ toString h
  | pastEnd id size offset =>
    "payload of " ++ toString id.toInt ++ " (" ++ toString size ++ " bytes at " ++
      toString offset ++ ") runs past the end of the file"
  | overclaimed id raw compressed =>
    "payload of " ++ toString id.toInt ++ " claims " ++ toString raw ++ " raw bytes from " ++
      toString compressed ++ " compressed"
  | pixelMismatch id => "pixel buffer mismatch for " ++ toString id.toInt
  | textTooLong id size =>
    "string too long for object " ++ toString id.toInt ++ ": " ++ toString size ++ " bytes"

/-- What is wrong with an entry of an override table. -/
inductive OverrideFault where
  | bothTargets
  | noTarget
  deriving DecidableEq, Repr

/-- A fault of an override in words. -/
def OverrideFault.message : OverrideFault → String
  | bothTargets => "both `asset` and `output` given"
  | noTarget => "needs `asset` or `output`"

/-- What makes an operation fail. -/
inductive Error where
  /-- The file system refused an operation. -/
  | file (fault : FileFault)
  /-- The directory of the bundles is none. -/
  | corpusNotFound (path : String)
  /-- A file does not begin with the mark of a bundle. -/
  | bundleMagic (path : String) (found : List UInt8)
  /-- A bundle has a format that is not read. -/
  | bundleVersion (version : Nat)
  /-- The object table or a payload of a bundle is inconsistent. -/
  | bundleCorrupt (bundle : String) (fault : BundleFault)
  /-- A bundle is not part of the corpus. -/
  | bundleNotFound (bundle : String)
  /-- A bundle has no image object of that number. -/
  | objectNotFound (bundle : String) (id : PathId)
  /-- A payload is no compressed block. -/
  | decompression (bundle : String) (id : PathId) (reason : String)
  /-- The index database refused an operation. -/
  | database (reason : String)
  /-- The index database lacks columns. -/
  | indexCorrupt (path : String) (missing : List String)
  /-- A bundle is not indexed. -/
  | bundleNotIndexed (bundle : String)
  /-- Two bundles of the same rank hold one object. -/
  | ambiguous (id : PathId) (first second : String)
  /-- An external tool could not be started. -/
  | toolMissing (tool hint : String)
  /-- An external tool reported a failure. -/
  | toolFailed (tool status stderr : String)
  /-- A merge task broke off. -/
  | taskBroke (message : String)
  /-- A configuration or an override table is no TOML of the right shape. -/
  | config
  /-- An entry of an override table is inconsistent. -/
  | invalidOverride (image : String) (fault : OverrideFault)
  /-- A list of descriptors is no JSON of the right shape. -/
  | json
  /-- A file is no picture, or a picture cannot be written. -/
  | picture (path reason : String)
  /-- A directory could not be walked. -/
  | walk (reason : String)
  deriving DecidableEq, Repr

/-- An error in words. -/
def Error.message : Error → String
  | file f => "IO error: " ++ f.message
  | corpusNotFound path => "bundle directory not found: " ++ path
  | bundleMagic path found =>
    "invalid bundle magic in " ++ path ++ ": expected GFAB, found [" ++
      String.intercalate ", " (found.map fun b => toString b.toNat) ++ "]"
  | bundleVersion v => "unsupported bundle version: " ++ toString v ++ " (supported: 1-1)"
  | bundleCorrupt bundle fault => "corrupt bundle " ++ bundle ++ ": " ++ fault.message
  | bundleNotFound bundle => "bundle not found in corpus: " ++ bundle
  | objectNotFound bundle id =>
    "no object with path_id " ++ toString id.toInt ++ " in bundle " ++ bundle
  | decompression bundle id reason =>
    "LZ4 decompression failed: " ++ bundle ++ " (path_id " ++ toString id.toInt ++ "): " ++ reason
  | database reason => "index database error: " ++ reason
  | indexCorrupt path missing =>
    "asset index is corrupt (image table lacks columns: " ++ String.intercalate ", " missing ++
      "); delete " ++ path ++ " to rebuild it"
  | bundleNotIndexed bundle => "bundle not indexed: " ++ bundle
  | ambiguous id first second =>
    "path_id " ++ toString id.toInt ++ " is ambiguous: present in both " ++ first ++ " and " ++
      second
  | toolMissing tool hint => "required tool `" ++ tool ++ "` not found: " ++ hint
  | toolFailed tool status stderr =>
    "`" ++ tool ++ "` failed (" ++ status ++ "): " ++ stderr
  | taskBroke message => "merge task panicked: " ++ message
  | config => "config parse error: not a table of the expected form"
  | invalidOverride image fault =>
    "invalid alpha override for " ++ image ++ ": " ++ fault.message
  | json => "JSON error: not a list of the expected form"
  | picture path reason => "image error for " ++ path ++ ": " ++ reason
  | walk reason => "directory walk error: " ++ reason

end CharacterArt
