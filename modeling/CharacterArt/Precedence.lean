import CharacterArt.Text.Lowercase

/-!
# Precedence of bundles

Where two bundles hold one object, the bundle of the higher rank provides it.

## Main Definitions

* `Rank` — deferred, plain and preferred, in rising order
* `Precedence`, `Precedence.rank` — patterns, and the rank of a bundle under them
-/

namespace CharacterArt

open Text (lowercase)

/-- The rank of a bundle. -/
inductive Rank where
  | deferred
  | plain
  | preferred
  deriving DecidableEq, Repr

/-- Ranks as numbers; the higher one wins. -/
def Rank.level : Rank → Nat
  | deferred => 0
  | plain => 1
  | preferred => 2

/-- Whether a pattern occurs in a text. -/
def occursIn (pattern : List Char) : List Char → Bool
  | [] => pattern.isEmpty
  | c :: rest => pattern.isPrefixOf (c :: rest) || occursIn pattern rest

/-- Which bundles outrank plain ones and which are outranked by them: those whose name contains one
of the patterns in any letter case. -/
structure Precedence where
  preferred : List String := []
  deferred : List String := ["avgpicprefab"]
  deriving DecidableEq, Repr

/-- Whether one of the patterns occurs in a name that is in lower case. -/
def matchesAny (patterns : List String) (name : String) : Bool :=
  patterns.any fun p => occursIn (lowercase p).toList name.toList

/-- The rank of a bundle. -/
def Precedence.rank (p : Precedence) (bundle : String) : Rank :=
  let name := lowercase bundle
  if matchesAny p.preferred name then .preferred
  else if matchesAny p.deferred name then .deferred
  else .plain

end CharacterArt
