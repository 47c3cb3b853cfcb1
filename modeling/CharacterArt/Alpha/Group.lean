import CharacterArt.Asset
import CharacterArt.Index.Record
import Std.Data.TreeMap.Basic

/-!
# Masks by name

Masks that were decoded with the required images, and masks that the index knows.

## Main Definitions

* `MaskGroup` — decoded masks, with `insert`, `find?`, `size`
* `MaskCatalog` — records of masks, with `ofRecords`, `find?`, `size`

## Design Notes

Both look names up in lower case.  Of several masks with one name in lower case the least by name
and bundle counts, and of records among these the one with the least number.
-/

namespace CharacterArt.Alpha

open Text (lowercase)

/-- Whether one pair of texts stands before another or is the same. -/
def pairLe (a b : String × String) : Bool :=
  decide (a.1 < b.1) || (a.1 == b.1 && decide (a.2 ≤ b.2))

/-- The order of masks with one name: by name and bundle. -/
def maskLe (a b : Asset) : Bool :=
  pairLe (a.name, a.bundle) (b.name, b.bundle)

/-- The order of records with one name: by name, bundle and number. -/
def recordLe (a b : Record) : Bool :=
  if a.name = b.name ∧ a.bundle = b.bundle then decide (a.pathId ≤ b.pathId)
  else pairLe (a.name, a.bundle) (b.name, b.bundle)

/-- Decoded masks, by name in lower case. -/
structure MaskGroup where
  masks : Std.TreeMap String (List Asset) := ∅

namespace MaskGroup

/-- Add a mask to those of the same name.  An object that is there already is not added again. -/
def addTo (image : Asset) (candidates : List Asset) : List Asset :=
  if candidates.any fun c => c.pathId == image.pathId && c.bundle == image.bundle then candidates
  else (candidates ++ [image]).mergeSort maskLe

/-- Add an image to a group, if it is a mask. -/
def insert (g : MaskGroup) (image : Asset) : MaskGroup :=
  if image.isMask then
    let key := lowercase image.name
    ⟨g.masks.insert key (addTo image ((g.masks[key]?).getD []))⟩
  else g

/-- The group of a list of images. -/
def ofList (images : List Asset) : MaskGroup :=
  images.foldl insert {}

/-- The first mask of a name, in any letter case. -/
def find? (g : MaskGroup) (name : String) : Option Asset :=
  (g.masks[lowercase name]?).bind List.head?

/-- How many masks a group holds. -/
def size (g : MaskGroup) : Nat :=
  g.masks.foldl (fun n _ candidates => n + candidates.length) 0

end MaskGroup

/-- Records of masks, by name in lower case. -/
structure MaskCatalog where
  masks : Std.TreeMap String (List Record) := ∅

namespace MaskCatalog

/-- Add a record to a catalog, if it is that of a mask. -/
def insert (c : MaskCatalog) (r : Record) : MaskCatalog :=
  if isMaskName r.name then
    let key := lowercase r.name
    ⟨c.masks.insert key ((c.masks[key]?).getD [] ++ [r])⟩
  else c

/-- The catalog of a list of records. -/
def ofRecords (records : List Record) : MaskCatalog :=
  records.foldl insert {}

/-- The first record of a name, in any letter case. -/
def find? (c : MaskCatalog) (name : String) : Option Record :=
  (c.masks[lowercase name]?).bind fun candidates => (candidates.mergeSort recordLe).head?

/-- How many records a catalog holds. -/
def size (c : MaskCatalog) : Nat :=
  c.masks.foldl (fun n _ candidates => n + candidates.length) 0

end MaskCatalog

end CharacterArt.Alpha
