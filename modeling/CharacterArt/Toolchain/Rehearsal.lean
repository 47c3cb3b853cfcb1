import CharacterArt.Toolchain.InProcess

/-!
# Rehearsals

A toolchain that works in process, keeps a record of its calls, and lets chosen calls go wrong.

## Main Definitions

* `Rehearsal.Method`, `Rehearsal.Entry` — the kinds of call, and a call in the record
* `Rehearsal.Faults` — which calls go wrong, and how
* `Toolchain.rehearsed` — the toolchain
-/

namespace CharacterArt

namespace Rehearsal

/-- The kinds of call. -/
inductive Method where
  | probe
  | resize
  | copyAlpha
  | quantize
  deriving DecidableEq, Repr

/-- The name of a kind of call. -/
def Method.label : Method → String
  | probe => "probe"
  | resize => "resize"
  | copyAlpha => "copy_alpha"
  | quantize => "quantize"

/-- A call in the record. -/
inductive Entry where
  | probe (image : String)
  | resize (width height : Nat)
  | copyAlpha
  | quantize
  deriving DecidableEq, Repr

/-- The kind of a call. -/
def Entry.method : Entry → Method
  | probe _ => .probe
  | resize _ _ => .resize
  | copyAlpha => .copyAlpha
  | quantize => .quantize

/-- Calls in the order in which they were made. -/
abbrev Calls := List Entry

/-- How many calls of a kind were made. -/
def count (r : Calls) (m : Method) : Nat :=
  r.countP fun e => e.method == m

/-- Which calls go wrong: of each kind, counted from zero. -/
structure Faults where
  fail : Method → List Nat := fun _ => []
  stop : Method → List Nat := fun _ => []
  stall : Method → List Nat := fun _ => []

/-- How a tool breaks off at a call. -/
def breakMessage (m : Method) (n : Nat) : String :=
  if n % 2 = 0 then "tool exploded" else m.label ++ " exploded at " ++ toString n

/-- What goes wrong at a call. -/
def Faults.at? (f : Faults) (m : Method) (n : Nat) : Option Stop :=
  if (f.stall m).contains n then some .stalled
  else if (f.stop m).contains n then some (.broke (breakMessage m n))
  else if (f.fail m).contains n then
    some (.failed (.toolFailed "fake" "exit status: 1" (m.label ++ " " ++ toString n ++ " refused")))
  else none

/-- A call that is recorded and then made, unless it goes wrong. -/
def recorded {α : Type} (f : Faults) (e : Entry) (call : Call Calls α) : Call Calls α := fun w =>
  let n := count w.tools e.method
  let w := { w with tools := w.tools ++ [e] }
  match f.at? e.method n with
  | some stop => (.error stop, w)
  | none => call w

end Rehearsal

open Rehearsal in
/-- A toolchain that works in process with chosen faults. -/
def Toolchain.rehearsed (faults : Faults) (canQuantize : Bool) : Toolchain Calls where
  probe image := recorded faults (.probe image) (Toolchain.inProcess.probe image)
  resize source width height target :=
    recorded faults (.resize width height) (Toolchain.inProcess.resize source width height target)
  copyAlpha base mask target :=
    recorded faults .copyAlpha (Toolchain.inProcess.copyAlpha base mask target)
  quantize image := recorded faults .quantize (Toolchain.inProcess.quantize image)
  canQuantize := canQuantize

end CharacterArt
