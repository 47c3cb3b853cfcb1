import CharacterArt.Asset

/-!
# Index records

## Main Definitions

* `Record` — what the index knows of an image object
-/

namespace CharacterArt

/-- What the index knows of an image object. -/
structure Record where
  pathId : PathId
  name : String
  kind : AssetKind
  width : UInt32
  height : UInt32
  /-- The bundle that holds the object. -/
  bundle : String
  container : String
  deriving DecidableEq, Repr

end CharacterArt
