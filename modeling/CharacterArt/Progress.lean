/-!
# Progress

## Main Definitions

* `Phase` — what a run is doing
* `Progress` — how far a run has come
* `Progress.fraction` — the part of a phase that is done
-/

namespace CharacterArt

/-- What a run is doing. -/
inductive Phase where
  | syncing
  | decoding
  | matching
  | merging
  | overriding
  | reconciling
  | complete
  deriving DecidableEq, Repr

/-- A phase in words. -/
def Phase.label : Phase → String
  | syncing => "Syncing index"
  | decoding => "Decoding bundles"
  | matching => "Matching alpha masks"
  | merging => "Merging images"
  | overriding => "Applying overrides"
  | reconciling => "Reconciling"
  | complete => "Complete"

/-- How far a run has come. -/
structure Progress where
  phase : Phase
  /-- The number of the item, counted from one. -/
  current : Nat
  total : Nat
  /-- The name of the item, if it has one. -/
  item : Option String := none
  deriving DecidableEq, Repr

/-- The part of a phase that is done; a phase without items is. -/
def Progress.fraction (p : Progress) : Float32 :=
  if p.total = 0 then 1
  else p.current.toUInt64.toFloat32 / p.total.toUInt64.toFloat32

end CharacterArt
