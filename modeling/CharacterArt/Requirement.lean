import CharacterArt.Asset

/-!
# Requirements

A requirement names one image of a character: the object with its colors and, if the image has
one, the object with its mask.

## Main Definitions

* `Requirement` — one required image, with its result key and its output directory
* `Requirements` — the required images of a run
* `Requirements.ids` — the objects that they name
-/

namespace CharacterArt

/-- One required image. -/
structure Requirement where
  /-- The character that the image belongs to. -/
  owner : String
  /-- The place of the image among those of the character. -/
  index : UInt32
  colorId : PathId
  /-- The object with the mask, or zero. -/
  alphaId : PathId := 0
  displayName : String := ""
  scale : Float32 := 1
  offsetX : Float32 := 0
  offsetY : Float32 := 0

namespace Requirement

/-- The key of the image among the results. -/
def key (r : Requirement) : String :=
  r.owner ++ "/" ++ toString r.index.toNat

/-- The directory of the image below the output directory. -/
def outputDir (r : Requirement) : String :=
  Text.lowercase r.owner

/-- Whether the image has a mask of its own. -/
def hasAlpha (r : Requirement) : Bool :=
  r.alphaId != 0

/-- The objects that a requirement names. -/
def ids (r : Requirement) : List PathId :=
  [r.colorId, r.alphaId].filter (· != 0)

end Requirement

/-- The required images of a run. -/
abbrev Requirements := List Requirement

namespace Requirements

/-- The objects that requirements name, each once, in ascending order. -/
def ids (rs : Requirements) : List PathId :=
  ((rs.flatMap Requirement.ids).eraseDups).mergeSort fun a b => decide (a ≤ b)

/-- Whether some requirement takes its colors from an object. -/
def isColor (rs : Requirements) (id : PathId) : Bool :=
  rs.any (·.colorId == id)

/-- The requirements that take their mask from an object. -/
def masking (rs : Requirements) (id : PathId) : Requirements :=
  rs.filter (·.alphaId == id)

end Requirements

end CharacterArt
