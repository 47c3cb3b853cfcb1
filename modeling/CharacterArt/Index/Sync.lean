import CharacterArt.Bundle.Corpus
import CharacterArt.Index.Lookup

/-!
# Keeping an index in step with a corpus

## Main Definitions

* `Index.SyncStats` — what a sync did
* `Store.removed`, `Store.added` — the bundles that a sync takes out and puts in
* `Store.sync` — a sync, for a given way to read tables
* `Store.syncFixed` — a sync of a store that cannot be written to

## Design Notes

A bundle is known by its name and size.  If either changes, its rows are taken out and those of its
new table are put in; no other table is read.  A sync that cannot read a table, or that the table of
images is against, gives no store, so the old one stays as it is.  Every image of a new bundle
counts as inserted, whatever became of its row.
-/

namespace CharacterArt.Index

/-- What a sync did. -/
structure SyncStats where
  added : Nat := 0
  removed : Nat := 0
  unchanged : Nat := 0
  recordsInserted : Nat := 0
  recordsDeleted : Nat := 0
  deriving DecidableEq, Repr

/-- Whether a sync had nothing to do. -/
def SyncStats.isNoop (s : SyncStats) : Bool :=
  s.added == 0 && s.removed == 0

namespace Store

/-- The indexed bundles that the corpus does not have with the same size. -/
def removed (s : Store) (c : Corpus) : List String :=
  (s.bundles.toList.filter fun (name, size) => (c.get? name).map BundleFile.size != some size).map
    Prod.fst

/-- The bundles of the corpus that are not indexed with the same size. -/
def added (s : Store) (c : Corpus) : List BundleFile :=
  c.bundles.filter fun b => s.bundles[b.name]? != some b.size

/-- What a sync finds, before it writes anything. -/
def syncStats (s : Store) (c : Corpus) : SyncStats :=
  let added := (s.added c).length
  { added := added, removed := (s.removed c).length, unchanged := c.size - added }

/-- Whether a row belongs to one of some bundles. -/
def belongsTo (s : Store) (names : List String) (r : Row) : Bool :=
  names.any fun name => s.isEqual .bundle (.text name) r

/-- A store without some bundles. -/
def withoutBundles (s : Store) (names : List String) : Store :=
  { s with
    bundles := s.bundles.filter fun name _ => !names.contains name
    images := s.images.filter fun r => !s.belongsTo names r }

/-- A store with one more bundle, unless its table of images is against one of the rows. -/
def withBundle (s : Store) (b : BundleFile) (entries : List Bundle.Entry) : Except Error Store :=
  match (rowsOf b.name entries).foldlM s.table.insert s.images with
  | some images =>
    if s.refersWell false images then
      .ok { s with bundles := s.bundles.insert b.name b.size, images := images }
    else .error (.database "FOREIGN KEY constraint failed")
  | none => .error (.database "constraint failed")

/-- Read the table of one more bundle into a store, and count its images. -/
def addBundle (read : BundleFile → Except Error (List Bundle.Entry)) (s : Store × Nat)
    (b : BundleFile) : Except Error (Store × Nat) := do
  let entries ← read b
  return (← s.1.withBundle b entries, s.2 + (rowsOf b.name entries).length)

/-- A store with more bundles, whose tables `read` gives, and how many images they have. -/
def withBundles (read : BundleFile → Except Error (List Bundle.Entry)) (s : Store)
    (bs : List BundleFile) : Except Error (Store × Nat) :=
  bs.foldlM (addBundle read) (s, 0)

/-- Bring a store in step with a corpus, whose tables `read` gives. -/
def sync (read : BundleFile → Except Error (List Bundle.Entry)) (s : Store) (c : Corpus) :
    Except Error (Store × SyncStats) :=
  let stats := s.syncStats c
  if stats.isNoop then .ok (s, stats)
  else if !s.table.takesRows then .error (.database "the table of images takes no rows")
  else do
    let kept := s.withoutBundles (s.removed c)
    if !kept.refersWell false kept.images then throw (.database "FOREIGN KEY constraint failed")
    let (new, inserted) ← withBundles read kept (s.added c)
    if !new.refersWell true new.images then throw (.database "FOREIGN KEY constraint failed")
    return (new, { stats with
      recordsInserted := inserted
      recordsDeleted := s.imageCount - kept.imageCount })

/-- A sync of a store that cannot be written to, which only succeeds if there is nothing to do.  The
first table to put in is read before that shows. -/
def syncFixed (read : BundleFile → Except Error (List Bundle.Entry)) (s : Store) (c : Corpus) :
    Except Error SyncStats :=
  let stats := s.syncStats c
  if stats.isNoop then .ok stats
  else
    match s.removed c, s.added c with
    | [], b :: _ =>
      if s.table.takesRows then (read b).bind fun _ => .error unwritable else .error unwritable
    | _, _ => .error unwritable
where
  unwritable : Error := .database "attempt to write a readonly database"

end Store

/-- The tables of a corpus on a disk. -/
def tablesOn (d : Files) (b : BundleFile) : Except Error (List Bundle.Entry) :=
  (Corpus.readBundle d b).map Bundle.entries

end CharacterArt.Index
