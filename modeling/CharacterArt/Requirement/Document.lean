import CharacterArt.Error
import CharacterArt.Json.Parser
import CharacterArt.Requirement

/-!
# Requirements as JSON

Requirements come as a list of JSON objects, or of lists that hold the same members in order.

## Main Definitions

* `Requirement.ofValue` — a requirement from a JSON value
* `Requirements.parse` — requirements from a text
-/

namespace CharacterArt

open Json (Value Quantity Piece)

namespace Requirement

/-- The members of an object, in order. -/
def memberNames : List String :=
  ["ownerName", "index", "colorPathId", "alphaPathId", "displayName", "scale", "offsetX", "offsetY"]

/-- The values of the members that count.  No such member may be given twice, and every name has
to be a text. -/
def slotsOf (members : List (List Piece × Value)) : Option (List (Option Value)) := do
  let named ← members.mapM fun (name, v) =>
    (Json.textOf name).map fun cs => (String.ofList cs, v)
  memberNames.mapM fun name =>
    match named.filter (·.1 == name) with
    | [] => some none
    | [(_, v)] => some (some v)
    | _ => none

/-- A text. -/
def readText : Value → Option String
  | .string pieces => (Json.textOf pieces).map String.ofList
  | _ => none

/-- A number. -/
def readQuantity : Value → Option Quantity
  | .number n => n.quantity
  | _ => none

/-- A number of 32 bits that is not negative. -/
def readIndex (v : Value) : Option UInt32 := do
  match ← readQuantity v with
  | .unsigned n => if n.toNat < UInt32.size then return n.toUInt32 else none
  | _ => none

/-- A number of an object. -/
def readId (v : Value) : Option PathId := do
  match ← readQuantity v with
  | .unsigned n => if n.toNat ≤ Int64.maxValue.toInt then return n.toInt64 else none
  | .signed i => return i
  | .real _ => none

/-- A number as a binary32 number. -/
def readReal (v : Value) : Option Float32 := do
  match ← readQuantity v with
  | .unsigned n => return n.toFloat32
  | .signed i => return i.toFloat32
  | .real x => return x.toFloat32

/-- The value of a slot, or a default. -/
def orElse {α : Type} (slot : Option Value) (default : α) (read : Value → Option α) : Option α :=
  match slot with
  | none => some default
  | some v => read v

/-- A requirement from the values of its members. -/
def ofSlots : List (Option Value) → Option Requirement
  | [some owner, some index, some color, alpha, display, scale, x, y] => do
    return {
      owner := ← readText owner
      index := ← readIndex index
      colorId := ← readId color
      alphaId := ← orElse alpha 0 readId
      displayName := ← orElse display "" readText
      scale := ← orElse scale 1 readReal
      offsetX := ← orElse x 0 readReal
      offsetY := ← orElse y 0 readReal }
  | _ => none

/-- A requirement from a JSON value. -/
def ofValue : Value → Option Requirement
  | .object members => (slotsOf members).bind ofSlots
  | .array items =>
    if items.length ≤ memberNames.length then
      ofSlots (items.map some ++ List.replicate (memberNames.length - items.length) none)
    else none
  | _ => none

end Requirement

/-- The requirements that a text spells. -/
def Requirements.parse (text : String) : Except Error Requirements :=
  match Value.parse text with
  | some (.array items) =>
    match items.mapM Requirement.ofValue with
    | some rs => .ok rs
    | none => .error .json
  | _ => .error .json

end CharacterArt
