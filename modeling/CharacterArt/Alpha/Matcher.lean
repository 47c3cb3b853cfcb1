import CharacterArt.Alpha.Group
import CharacterArt.Alpha.Override

/-!
# Finding masks

Which mask belongs to an image is decided by a chain of rules.  The first rule that gives a mask
counts.

## Main Definitions

* `MatchRule` — the rules, in order
* `MaskSource`, `MaskMatch` — where a mask is taken from, and the rule that found it
* `Matcher`, `Query`, `Matcher.find?` — what the rules look at, and their chain

## Design Notes

The rules are: the mask that the requirement names; a mask decoded with the required images; a mask
that the index knows; these two again for the name without its number; the override table.
-/

namespace CharacterArt.Alpha

/-- A rule that finds masks. -/
inductive MatchRule where
  | requirement
  | group
  | catalog
  | numericSuffix
  | override
  deriving DecidableEq, Repr

/-- A rule in words. -/
def MatchRule.label : MatchRule → String
  | requirement => "descriptor alpha"
  | group => "same bundle"
  | catalog => "index catalog"
  | numericSuffix => "numeric suffix stripped"
  | override => "override table"

/-- Where a mask is taken from. -/
inductive MaskSource where
  /-- It is decoded. -/
  | decoded (mask : Asset)
  /-- The index tells where to decode it. -/
  | indexed (record : Record)
  /-- The index may know an object of that name. -/
  | named (name : String)
  /-- It is the image that was written to that path. -/
  | output (path : String)
  deriving DecidableEq, Repr

/-- A mask that was found. -/
structure MaskMatch where
  rule : MatchRule
  source : MaskSource
  deriving DecidableEq, Repr

/-- What the rules look at. -/
structure Matcher where
  group : MaskGroup := {}
  catalog : MaskCatalog := {}
  overrides : OverrideTable := ∅

/-- An image whose mask is wanted. -/
structure Query where
  color : Asset
  /-- Where the image is written to. -/
  outputPath : String
  /-- The object that the requirement names as the mask. -/
  explicit : Option Asset := none

namespace Matcher

/-- A mask of an image by its name, decoded or indexed. -/
def byName (m : Matcher) (name : String) (inGroup inCatalog : MatchRule) :
    Option MaskMatch :=
  let maskName := maskNameFor name
  match m.group.find? maskName with
  | some mask => some ⟨inGroup, .decoded mask⟩
  | none => (m.catalog.find? maskName).map fun record => ⟨inCatalog, .indexed record⟩

/-- The mask that the requirement names, if that is a mask and another object. -/
def byRequirement (q : Query) : Option MaskMatch :=
  match q.explicit with
  | some mask =>
    if mask.pathId ≠ q.color.pathId ∧ mask.isMask then some ⟨.requirement, .decoded mask⟩ else none
  | none => none

/-- The mask that the override table names. -/
def byOverride (m : Matcher) (outputPath : String) : Option MaskMatch :=
  (m.overrides.find? outputPath).map fun
    | .asset name => ⟨.override, .named name⟩
    | .output path => ⟨.override, .output path⟩

/-- The mask that the first rule gives which gives one. -/
def find? (m : Matcher) (q : Query) : Option MaskMatch :=
  (byRequirement q).or <|
    (m.byName q.color.name .group .catalog).or <|
      ((stripNumber q.color.name).bind fun base =>
        m.byName base .numericSuffix .numericSuffix).or <|
          m.byOverride q.outputPath

end Matcher

end CharacterArt.Alpha
