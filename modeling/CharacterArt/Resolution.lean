import CharacterArt.Alpha.Group
import CharacterArt.Bundle.Corpus
import CharacterArt.Diagnostic
import CharacterArt.Index.Lookup
import CharacterArt.Precedence
import CharacterArt.Progress
import CharacterArt.Requirement

/-!
# Resolving requirements

Required objects are looked up in the index and decoded from the bundles that hold them.  No other
bundle is opened.

## Main Definitions

* `Copies`, `Copies.choose` — the best copy of each object so far, and one more copy
* `Resolution` — the objects that were found, the masks decoded beside them, and what is missing
* `Resolution.recover` — colors found through the mask of a requirement
* `Resolution.gaps` — the objects that are missing
* `resolve` — the resolution of requirements

## Design Notes

Only copies of one kind compete, and the one from the bundle of higher rank wins.  Two copies of
the same rank are refused when the second one is met.  A sprite hides a texture of its number.
-/

namespace CharacterArt

/-- The best copy of each object so far. -/
structure Copies where
  textures : Std.TreeMap PathId Asset := ∅
  sprites : Std.TreeMap PathId Asset := ∅

namespace Copies

/-- The best copies of one kind. -/
def ofKind (c : Copies) : AssetKind → Std.TreeMap PathId Asset
  | .texture => c.textures
  | .sprite => c.sprites

/-- Put a copy in the place of the one so far. -/
def put (c : Copies) (a : Asset) : Copies :=
  match a.kind with
  | .texture => { c with textures := c.textures.insert a.pathId a }
  | .sprite => { c with sprites := c.sprites.insert a.pathId a }

/-- Choose between one more copy and the one so far. -/
def choose (p : Precedence) (c : Copies) (a : Asset) : Except Error Copies :=
  match (c.ofKind a.kind)[a.pathId]? with
  | none => .ok (c.put a)
  | some best =>
    match compare (p.rank a.bundle).level (p.rank best.bundle).level with
    | .gt => .ok (c.put a)
    | .lt => .ok c
    | .eq => .error (.ambiguous a.pathId best.bundle a.bundle)

/-- The best copies among a list, in the order in which they are met. -/
def ofList (p : Precedence) (assets : List Asset) : Except Error Copies :=
  assets.foldlM (choose p) {}

/-- One asset for each number: the sprite if there is one. -/
def merged (c : Copies) : Std.TreeMap PathId Asset :=
  c.sprites.toList.foldl (fun images (id, a) => images.insert id a) c.textures

end Copies

/-- What became of requirements. -/
structure Resolution where
  images : Std.TreeMap PathId Asset := ∅
  /-- The masks of the bundles that were opened. -/
  group : Alpha.MaskGroup := {}
  /-- The bundles that were opened, in order. -/
  opened : List String := []
  diagnostics : Diagnostics := []

namespace Resolution

/-- The asset of a number. -/
def get? (r : Resolution) (id : PathId) : Option Asset :=
  r.images[id]?

/-- Whether there is an asset of a number. -/
def contains (r : Resolution) (id : PathId) : Bool :=
  r.images.contains id

/-- How many bundles were opened. -/
def bundlesDecoded (r : Resolution) : Nat :=
  r.opened.length

/-- How far the resolution was when each bundle was opened. -/
def progress (r : Resolution) : List Progress :=
  r.opened.mapIdx fun i name => ⟨.decoding, i + 1, r.opened.length, some name⟩

/-! ### Opening bundles -/

/-- The bundles that hold given objects, by name. -/
def bundlesWith (s : Index.Store) (ids : List PathId) : Except Error (List String) := do
  let textures ← s.lookup ids .texture
  let sprites ← s.lookup ids .sprite
  return ((textures ++ sprites).map Record.bundle).eraseDups.mergeSort fun a b => decide (a ≤ b)

/-- Whether an entry is decoded when its bundle is opened: required objects and masks are. -/
def isWanted (ids : List PathId) (e : Bundle.Entry) : Bool :=
  ids.contains e.pathId || (e.kind? == some .texture && Alpha.isMaskName e.name)

/-- Whether an asset joins the group of masks. -/
def joinsGroup (a : Asset) : Bool :=
  a.kind == .texture && a.isMask

/-! ### Colors found through their mask -/

/-- A record of that name, of a texture if there is one. -/
def findNamed (s : Index.Store) (name : String) : Except Error (Option Record) := do
  match ← s.findByName? name .texture with
  | some record => return some record
  | none => s.findByName? name .sprite

/-- The color of a requirement whose mask is known: the asset itself if it is no mask, else the
object with the name of the mask without its marker. -/
def colorFor (s : Index.Store) (c : Corpus) (d : Files) (mask : Asset) :
    Except Error (Option Asset) := do
  match Alpha.colorNameFor mask.name with
  | none => return some mask
  | some name =>
    match ← findNamed s name with
    | none => return none
    | some record => return some (← c.decodeOne d record.bundle record.pathId record.kind)

/-- Add the color of a requirement if it is missing and its mask is not. -/
def recoverOne (s : Index.Store) (c : Corpus) (d : Files) (images : Std.TreeMap PathId Asset)
    (r : Requirement) : Except Error (Std.TreeMap PathId Asset) :=
  if r.colorId == 0 || images.contains r.colorId || !r.hasAlpha then .ok images
  else
    match images[r.alphaId]? with
    | none => .ok images
    | some mask => do
      match ← colorFor s c d mask with
      | some color => return images.insert r.colorId color
      | none => return images

/-- Add all colors that are missing while their masks are not. -/
def recover (s : Index.Store) (c : Corpus) (d : Files) (images : Std.TreeMap PathId Asset)
    (rs : Requirements) : Except Error (Std.TreeMap PathId Asset) :=
  rs.foldlM (recoverOne s c d) images

/-! ### Reports -/

/-- The requirements without a number of their color. -/
def invalidIds (rs : Requirements) : Diagnostics :=
  (rs.filter (·.colorId == 0)).map fun r =>
    ⟨.invalidPathId, r.key, "descriptor has no color path id"⟩

/-- Whether an object may be missing: it is a mask, and every image that it belongs to is
transparent without it. -/
def isDispensable (images : Std.TreeMap PathId Asset) (rs : Requirements) (id : PathId) : Bool :=
  !Requirements.isColor rs id &&
    (Requirements.masking rs id).all fun r =>
      match images[r.colorId]? with
      | some color => color.isTransparent
      | none => false

/-- The required objects that are missing. -/
def gaps (images : Std.TreeMap PathId Asset) (rs : Requirements) : Diagnostics :=
  ((Requirements.ids rs).filter fun id => !images.contains id && !isDispensable images rs id).map
    fun id => ⟨.resolutionGap, toString id.toInt, "path id is not in any indexed bundle"⟩

end Resolution

/-- Resolve requirements by an index and the bundles of a corpus. -/
def resolve (s : Index.Store) (c : Corpus) (d : Files) (p : Precedence) (rs : Requirements) :
    Except Error Resolution := do
  let ids := Requirements.ids rs
  let names ← Resolution.bundlesWith s ids
  let assets := (← names.mapM fun name => c.decodeWhere d name (Resolution.isWanted ids)).flatten
  let copies ← Copies.ofList p (assets.filter fun a => ids.contains a.pathId)
  let images ← Resolution.recover s c d copies.merged rs
  return {
    images := images
    group := Alpha.MaskGroup.ofList (assets.filter Resolution.joinsGroup)
    opened := names
    diagnostics := Resolution.invalidIds rs ++ Resolution.gaps images rs }

end CharacterArt
