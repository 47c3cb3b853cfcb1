import CharacterArt.Toolchain.External
import CharacterArt.Toolchain.InProcess

/-!
# Substitutes for the external tools

Programs that answer the command lines of the external tools in process, or as a script says.

## Main Definitions

* `Substitute.Tool`, `Substitute.Commands` — the two tools, and the record of their command lines
* `Substitute.Script` — what a tool does whatever it is asked
* `Programs.substitutes` — the programs
-/

namespace CharacterArt

namespace Substitute

/-- The two tools. -/
inductive Tool where
  | magick
  | pngquant
  deriving DecidableEq, Repr

/-- The name of a tool. -/
def Tool.label : Tool → String
  | magick => "magick"
  | pngquant => "pngquant"

/-- The command lines in the order in which they were given. -/
abbrev Commands := List (Tool × List String)

/-- What a tool does whatever it is asked. -/
structure Script where
  status : Nat := 0
  stdout : String := ""
  stderr : String := ""
  deriving DecidableEq, Repr

/-- What a script leaves behind.  Of the status eight bits are kept. -/
def Script.result (s : Script) : ProgramResult where
  status := s.status % 256
  stdout := Text.Utf8.encode s.stdout
  stderr := Text.Utf8.encode s.stderr

/-- The width and height of a geometry such as `4x3!`. -/
def geometry? (text : String) : Option (Nat × Nat) :=
  match Text.split 'x' (text.toList.filter (· != '!')) with
  | [w, h] => do return (← (String.ofList w).toNat?, ← (String.ofList h).toNat?)
  | _ => none

/-- The end of a program that cannot do what it is asked. -/
def refusal (message : String) : ProgramResult where
  status := 1
  stderr := Text.Utf8.encode (message ++ "\n")

/-- The end of a program that changes files. -/
def changing {σ : Type} (f : Files → Except Error Files) (w : World σ) :
    ProgramResult × World σ :=
  match f w.disk with
  | .ok d => ({}, { w with disk := d })
  | .error _ => (refusal "cannot read image", w)

/-- What a tool does when it works in process. -/
def work {σ : Type} (tool : Tool) (args : List String) (w : World σ) : ProgramResult × World σ :=
  match tool, args with
  | .magick, ["-version"] | .pngquant, ["--version"] => ({}, w)
  | .magick, ["identify", "-format", "%[opaque]", image] =>
    match InProcess.probe image w.disk with
    | .ok answer =>
      ({ stdout := Text.Utf8.encode (if answer then "True" else "False") }, w)
    | .error _ => (refusal "cannot read image", w)
  | .magick, [source, "-resize", size, target] =>
    match geometry? size with
    | some (width, height) => changing (InProcess.resize source width height target) w
    | none => (refusal "no geometry", w)
  | .magick, [base, mask, "-compose", "copy-opacity", "-composite", target] =>
    changing (InProcess.copyAlpha base mask target) w
  | .pngquant, ["--force", "--strip", "--ext", _, image] =>
    changing (InProcess.quantize image
      (Path.withExtension image ExternalTools.quantizedExtension)) w
  | _, _ => (refusal "unknown command line", w)

/-- Whether a command line only asks for the version. -/
def asksVersion (args : List String) : Bool :=
  args == ["-version"] || args == ["--version"]

end Substitute

open Substitute in
/-- Programs that take the place of the external tools, where `installed` tells which paths lead to
one. -/
def Programs.substitutes (installed : String → Option Tool) (script : Option Script) :
    Programs Commands where
  start program args w :=
    if args.any fun a => a.toList.contains '\x00' then (.error .unusableName, w)
    else
      match installed program with
      | none => (.error .notFound, w)
      | some tool =>
        let w := { w with tools := w.tools ++ [(tool, args)] }
        match script with
        | some s => if asksVersion args then (.ok {}, w) else (.ok s.result, w)
        | none =>
          let (result, w) := work tool args w
          (.ok result, w)

end CharacterArt
