import CharacterArt.Proofs.Index.Resync

/-!
# Bundles that a sync does not read

A sync knows an indexed bundle by its name and size and never opens its file.  This is said of two
disks at once.  If an open index finds the same database on both (`Handle.Alike`), and they give the
same tables for the bundles that the database lacks, then a sync answers the same on both and leaves
the same database.  Of the files of all other bundles nothing is assumed: one of them may be damaged
or gone on one disk and not on the other.

## Main Definitions

* `Handle.Alike` — an open index finds the same database on two disks

## Main Results

* `Handle.Alike.put` — a database that is put in the place of the old one is found on both disks
* `Handle.Alike.sync_eq` — a sync depends on the bundles that it puts in, and on no others
-/

namespace CharacterArt.Index

namespace Store

variable {s : Store} {c : Corpus} {read read' : BundleFile → Except Error (List Bundle.Entry)}

/-- A sync of a store that cannot be written to looks only at the tables of the bundles that it
would put in. -/
theorem syncFixed_congr (hread : ∀ b ∈ s.added c, read b = read' b) :
    s.syncFixed read c = s.syncFixed read' c := by
  unfold syncFixed
  dsimp only
  split
  · rfl
  · split
    · next b rest _ hadded =>
        have hfirst : b ∈ s.added c := by
          rw [hadded]
          exact List.mem_cons_self
        rw [hread b hfirst]
    · rfl

/-- A sync with the corpus that is indexed finds all bundles unchanged. -/
theorem syncStats_of_eq (hc : c.Named)
    (hsame : ∀ name, s.bundles[name]? = (c.get? name).map BundleFile.size) :
    s.syncStats c = { unchanged := c.size } := by
  obtain ⟨hadded, hremoved⟩ := isNoop_syncStats.mp ((isNoop_iff hc).mpr hsame)
  simp [syncStats, hadded, hremoved]

end Store

namespace Handle

variable {h : Handle} {d d' : Files} {c : Corpus} {s : Store}

/-- An open index finds the same database on two disks, and may write to both or to none. -/
structure Alike (h : Handle) (d d' : Files) : Prop where
  store_eq : h.store d' = h.store d
  isWritable_eq : h.isWritable d' = h.isWritable d

/-- Whether a file can be written to is not changed by what is written to it. -/
theorem isWritable_put (hstore : h.store d = .ok s) (t : Store) :
    (h.put d t).1.isWritable (h.put d t).2 = h.isWritable d := by
  cases h with
  | inMemory old => rfl
  | inFile place w =>
      have hplace : place ≠ [] := by
        rintro rfl
        cases hstore
      show canWrite (putStore d place t) place w = canWrite d place w
      rw [canWrite, canWrite, isBlocked_putStore hplace]
  | orphaned place old => rfl

/-- The open index after a database was put in its place does not depend on the disk. -/
theorem put_fst_eq (h : Handle) (d d' : Files) (t : Store) : (h.put d' t).1 = (h.put d t).1 := by
  cases h <;> rfl

/-- **A database that is put in the place of the old one is found on both disks.** -/
theorem Alike.put (halike : h.Alike d d') (hstore : h.store d = .ok s)
    (hwritable : h.isWritable d = true) (t : Store) :
    (h.put d t).1.Alike (h.put d t).2 (h.put d' t).2 := by
  have hstore' : h.store d' = .ok s := halike.store_eq.trans hstore
  have hwritable' : h.isWritable d' = true := halike.isWritable_eq.trans hwritable
  constructor
  · rw [store_put hstore hwritable, ← put_fst_eq h d d', store_put hstore' hwritable']
  · rw [isWritable_put hstore, ← put_fst_eq h d d', isWritable_put hstore', halike.isWritable_eq]

/-- **A sync with the corpus that is indexed touches neither the index nor the files.** -/
theorem sync_of_indexed (hstore : h.store d = .ok s) (hc : c.Named)
    (hsame : ∀ name, s.bundles[name]? = (c.get? name).map BundleFile.size) :
    h.sync d c = (.ok { unchanged := c.size }, h, d) := by
  rw [sync_of_isNoop hstore ((Store.isNoop_iff hc).mpr hsame), Store.syncStats_of_eq hc hsame]

/-- An index that is found on both disks is synced alike if the bundles that it lacks have the same
tables. -/
theorem Alike.sync_of_store (halike : h.Alike d d') (hstore : h.store d = .ok s)
    (hadded : ∀ b ∈ s.added c, tablesOn d' b = tablesOn d b) :
    (h.sync d' c).1 = (h.sync d c).1 ∧ (h.sync d' c).2.1 = (h.sync d c).2.1 ∧
      (h.sync d c).2.1.Alike (h.sync d c).2.2 (h.sync d' c).2.2 := by
  have hstore' : h.store d' = .ok s := halike.store_eq.trans hstore
  unfold sync
  rw [hstore, hstore']
  dsimp only
  rw [halike.isWritable_eq, Store.sync_congr hadded, Store.syncFixed_congr hadded]
  cases hwritable : h.isWritable d with
  | false => exact ⟨rfl, rfl, halike⟩
  | true =>
      rw [if_pos rfl, if_pos rfl]
      cases s.sync (tablesOn d) c with
      | error e => exact ⟨rfl, rfl, halike⟩
      | ok result =>
          dsimp only
          split
          · exact ⟨rfl, rfl, halike⟩
          · exact ⟨rfl, put_fst_eq h d d' _, halike.put hstore hwritable _⟩

/-- **A sync depends on the bundles that it puts in, and on no others.**  Where an open index finds
the same database on two disks, and the bundles that are not indexed with their size have the same
tables on both, a sync gives the same statistics or the same error, and what is found afterwards is
the same again.  The tables of the indexed bundles count for nothing, be they readable or not.  If
the corpus is the one that is indexed, then every bundle counts as unchanged, and neither the index
nor the files are touched. -/
theorem Alike.sync_eq (halike : h.Alike d d') (hc : c.Named)
    (hread : ∀ s, h.store d = .ok s → ∀ b ∈ c.bundles, s.bundles[b.name]? ≠ some b.size →
      tablesOn d' b = tablesOn d b) :
    (h.sync d' c).1 = (h.sync d c).1 ∧
      (h.sync d' c).2.1 = (h.sync d c).2.1 ∧
      (h.sync d c).2.1.Alike (h.sync d c).2.2 (h.sync d' c).2.2 ∧
      ∀ s, h.store d = .ok s →
        (∀ name, s.bundles[name]? = (c.get? name).map BundleFile.size) →
        h.sync d c = (.ok { unchanged := c.size }, h, d) ∧
          h.sync d' c = (.ok { unchanged := c.size }, h, d') := by
  cases hstore : h.store d with
  | error e =>
      have hfailed : h.sync d c = (.error e, h, d) := by rw [sync, hstore]
      have hfailed' : h.sync d' c = (.error e, h, d') := by rw [sync, halike.store_eq, hstore]
      rw [hfailed, hfailed']
      exact ⟨rfl, rfl, halike, fun s hs => by cases hs⟩
  | ok s =>
      have hadded : ∀ b ∈ s.added c, tablesOn d' b = tablesOn d b := by
        intro b hb
        obtain ⟨hmem, hnew⟩ := List.mem_filter.mp hb
        exact hread s hstore b hmem (by simpa using hnew)
      obtain ⟨hresult, hopen, halike'⟩ := halike.sync_of_store hstore hadded
      refine ⟨hresult, hopen, halike', fun t ht hsame => ?_⟩
      cases ht
      exact ⟨sync_of_indexed hstore hc hsame,
        sync_of_indexed (halike.store_eq.trans hstore) hc hsame⟩

end Handle

/-! ### A damaged bundle

The bundle `x` is indexed.  Then `y` comes beside it, and on a second disk `x` is damaged. -/

namespace Damaged

/-- The directory with the bundle `y` beside `x`. -/
def whole : Files :=
  Corpus.diskWith "b"
    [("x.ab", [.ofPicture .texture 7 "art" "" default, .other 5 "node" ""]),
      ("y.ab", [.ofPicture .sprite 7 "art" "" default])]

/-- The same with a file of the same size in the place of `x` that is no bundle. -/
def damaged : Files :=
  whole.put ["b", "x.ab"] (.file (.bytes (List.replicate 94 0)))

open Replaced in
/-- All that is asked of the bundles, in one evaluation. -/
theorem evaluated_damaged :
    (∀ b ∈ (corpusOf whole).bundles, b.name = "x" → (corpusOf first).get? b.name = some b) ∧
    (∀ b ∈ (corpusOf whole).bundles, b.name ≠ "x" → tablesOn damaged b = tablesOn whole b) ∧
    (∀ b ∈ (corpusOf whole).bundles, tablesOn whole b = .ok (tables b.name b.size)) ∧
    (corpusOf damaged).bundles = (corpusOf whole).bundles ∧
    (∃ b ∈ (corpusOf whole).bundles, (tablesOn whole b).isOk = true ∧
      (tablesOn damaged b).isOk = false) ∧
    (corpusOf first).size = 1 := by
  decide +kernel

end Damaged

open Damaged Replaced in
theorem sync_eq_damaged : ∃ s, (Handle.inMemory s).store whole = .ok s ∧
    (∀ b ∈ (corpusOf whole).bundles, b.name = "x" → s.bundles[b.name]? = some b.size) ∧
    (corpusOf damaged).bundles = (corpusOf whole).bundles ∧
    (∃ b ∈ (corpusOf whole).bundles, (tablesOn whole b).isOk = true ∧
      (tablesOn damaged b).isOk = false) ∧
    ((Handle.inMemory s).sync whole (corpusOf whole)).1.isOk = true ∧
    ((Handle.inMemory s).sync damaged (corpusOf whole)).1 =
      ((Handle.inMemory s).sync whole (corpusOf whole)).1 ∧
    (Handle.inMemory s).sync damaged (corpusOf first) =
      (.ok { unchanged := 1 }, .inMemory s, damaged) := by
  obtain ⟨hindexed, hread, htables, hcorpus, hdamaged, hfirst⟩ := evaluated_damaged
  obtain ⟨s, history⟩ := exists_history_first
  obtain ⟨t, ht, hstep⟩ := history.inStep
  cases ht
  have hsize : ∀ b ∈ (corpusOf whole).bundles, b.name = "x" →
      s.bundles[b.name]? = some b.size := by
    intro b hb hname
    rw [hstep.bundles_eq, hindexed b hb hname]
    rfl
  have halike : (Handle.inMemory s).Alike whole damaged := ⟨rfl, rfl⟩
  have hnamed : (corpusOf whole).Named :=
    Corpus.named_of_scan (Corpus.scan_eq_scanned (by decide))
  obtain ⟨s', stats, hsync⟩ := Store.exists_sync (c := corpusOf whole) hstep.faithful.standard
    fun b hb => htables b (List.mem_of_mem_filter hb)
  refine ⟨s, rfl, hsize, hcorpus, hdamaged, ?_, ?_, ?_⟩
  · rw [Handle.sync_inMemory hsync]
    rfl
  · refine (halike.sync_eq hnamed ?_).1
    rintro t ⟨⟩ b hb hne
    exact hread b hb fun hname => hne (hsize b hb hname)
  · obtain ⟨-, -, -, hidle⟩ := halike.sync_eq history.named (by
      rintro t ⟨⟩ b hb hne
      refine absurd ?_ hne
      rw [hstep.bundles_eq, (Corpus.mem_bundles history.named).mp hb]
      rfl)
    obtain ⟨-, hsync⟩ := hidle s rfl hstep.bundles_eq
    rwa [hfirst] at hsync

end CharacterArt.Index
