import CharacterArt.Alpha.Name
import CharacterArt.Picture

/-!
# Assets

The image objects that bundles hold.

## Main Definitions

* `PathId` — the number that identifies an object
* `AssetKind` — the two kinds of image object, and their tags
* `Asset` — an image object with its pixels
-/

namespace CharacterArt

/-- The number that identifies an object.  Zero identifies none. -/
abbrev PathId := Int64

/-- The kinds of image object. -/
inductive AssetKind where
  | texture
  | sprite
  deriving DecidableEq, Repr, Inhabited

namespace AssetKind

/-- The tag of a kind in object tables and in the index. -/
def tag : AssetKind → UInt8
  | texture => 0
  | sprite => 1

/-- The kind that a tag stands for.  All other tags are those of objects without pixels. -/
def ofTag? (tag : UInt8) : Option AssetKind :=
  if tag = 0 then some texture else if tag = 1 then some sprite else none

@[simp] theorem ofTag?_tag (k : AssetKind) : ofTag? k.tag = some k := by
  cases k <;> rfl

/-- The name of a kind. -/
def label : AssetKind → String
  | texture => "Texture2D"
  | sprite => "Sprite"

end AssetKind

/-- An image object with its pixels. -/
structure Asset where
  pathId : PathId
  name : String
  kind : AssetKind
  /-- The bundle that the object was read from. -/
  bundle : String
  /-- The path that the object was packed from, if known. -/
  container : String
  picture : Picture
  deriving DecidableEq, Repr

namespace Asset

/-- Whether the name is that of a mask. -/
def isMask (a : Asset) : Bool :=
  Alpha.isMaskName a.name

/-- Whether some pixel is less than fully opaque. -/
def isTransparent (a : Asset) : Bool :=
  a.picture.isTransparent

end Asset

end CharacterArt
