import CharacterArt.Content

/-!
# Toolchains

Masks are joined to pictures by a tool that reads and writes files.

## Main Definitions

* `World` — the files, and what the tool keeps to itself
* `Stop`, `Call` — why a call gives no answer, and calls
* `Toolchain` — the four calls that merging needs

## Design Notes

A call may change any file, whether it gives an answer or not.  What is known of a particular tool
is a hypothesis about its calls.
-/

namespace CharacterArt

/-- The files, and the state of a tool. -/
structure World (σ : Type) where
  disk : Files
  tools : σ

/-- Why a call gives no answer. -/
inductive Stop where
  /-- It reports an error. -/
  | failed (error : Error)
  /-- It breaks off. -/
  | broke (message : String)
  /-- It does not end as long as anyone waits. -/
  | stalled
  deriving DecidableEq, Repr

/-- A call of a tool. -/
abbrev Call (σ α : Type) := World σ → Except Stop α × World σ

/-- The calls that merging needs. -/
structure Toolchain (σ : Type) where
  /-- Whether every pixel of a picture is fully opaque. -/
  probe : (image : String) → Call σ Bool
  /-- Write a picture at exactly the given size. -/
  resize : (source : String) → (width height : Nat) → (target : String) → Call σ Unit
  /-- Write a picture with a mask as its alpha channel. -/
  copyAlpha : (base mask target : String) → Call σ Unit
  /-- Quantize a picture in place. -/
  quantize : (image : String) → Call σ Unit
  /-- Whether the tool can quantize. -/
  canQuantize : Bool := true

end CharacterArt
