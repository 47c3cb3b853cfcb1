import CharacterArt.Index.Handle
import CharacterArt.Proofs.Disk
import CharacterArt.Proofs.Index.Content
import CharacterArt.Proofs.Index.Queries

/-!
# Histories of syncs

An index is opened empty and then brought in step with one corpus after another.  Between two syncs
the files may change in any way that leaves the database alone, and a sync may fail.  `SyncHistory`
is such a course of events together with the corpus of the last sync that succeeded, and the result
is that this corpus alone decides what the index holds.

One assumption ties a history together: the name and size of a bundle stand for one object table
(`tables`), since a sync never looks at a bundle again whose name and size are indexed.  Only the
tables that a successful sync might read have to be as `tables` says; a file that cannot be read is
no breach of it.

## Main Definitions

* `SyncHistory` — an open index, the files beside it and the corpus of the last sync that succeeded

## Main Results

* `Handle.store_of_sync_ok`, `Handle.store_of_sync_error` — a sync of an open index is one of its
  database, or leaves everything as it was
* `SyncHistory.inStep` — after every history the database is in step with that corpus
* `SyncHistory.eq_fresh_sync` — it holds what one sync of a new index gives
-/

namespace CharacterArt.Index

/-! ### Databases in files -/

theorem isBlocked_putStore {d : Files} {place : Location} (hplace : place ≠ []) (s : Store) :
    isBlocked (putStore d place s) place = isBlocked d place := by
  have hbeside : ∀ ending ∈ [journalEnding, logEnding],
      (putStore d place s).node? (beside place ending) = d.node? (beside place ending) := by
    intro ending hending
    rw [putStore, Disk.node?_put d hplace, if_neg]
    intro heq
    -- the name of a file beside another one is longer than the name of that one
    have hlast := congrArg (fun l : Location => (l.getLast?.getD "").utf8ByteSize) heq
    have hsize : ending.utf8ByteSize ≠ 0 := by
      rcases List.mem_pair.mp hending with rfl | rfl <;> decide
    simp only [beside, List.getLast?_concat, Option.getD_some, String.utf8ByteSize_append] at hlast
    omega
  simp only [isBlocked, List.any_cons, List.any_nil, hbeside journalEnding (by simp),
    hbeside logEnding (by simp)]

/-- A database that is put into a usable file is found there again. -/
theorem storeAt_putStore {d : Files} {place : Location} {old : Store}
    (h : storeAt d place = .ok (some old)) (s : Store) :
    storeAt (putStore d place s) place = .ok (some s) := by
  have hplace : place ≠ [] := by
    rintro rfl
    cases h
  have hblocked : isBlocked d place = false := by
    unfold storeAt at h
    split at h
    · split at h
      · cases h
      · next hfree => simpa using hfree
    · split at h <;> cases h
    · cases h
  have hnode : (putStore d place s).node? place = some (.file (.index s)) := by
    rw [putStore, Disk.node?_put d hplace, if_pos rfl]
  rw [storeAt, hnode]
  simp only [isBlocked_putStore hplace, hblocked, Bool.false_eq_true, if_false]

namespace Handle

variable {h h' : Handle} {d d' : Files} {c : Corpus} {s : Store}

theorem store_put (hstore : h.store d = .ok s) (hwritable : h.isWritable d = true) (t : Store) :
    (h.put d t).1.store (h.put d t).2 = .ok t := by
  cases h with
  | inMemory old => rfl
  | inFile place w =>
      unfold store at hstore
      simp only at hstore
      split at hstore
      · next old hold =>
          show (inFile place w).store (putStore d place t) = .ok t
          simp only [store, storeAt_putStore hold]
      · cases hstore
      · cases hstore
  | orphaned place old => cases hwritable

/-- A sync that fails leaves the index and the files as they were. -/
theorem eq_of_sync_error {e : Error} (hsync : h.sync d c = (.error e, h', d')) :
    h' = h ∧ d' = d := by
  unfold sync at hsync
  split at hsync
  · cases hsync
    exact ⟨rfl, rfl⟩
  · split at hsync
    · split at hsync
      · cases hsync
        exact ⟨rfl, rfl⟩
      · split at hsync <;> cases hsync
    · rw [Prod.mk.injEq, Prod.mk.injEq] at hsync
      exact ⟨hsync.2.1.symm, hsync.2.2.symm⟩

/-- **A sync that fails leaves the database as it was.** -/
theorem store_of_sync_error {e : Error} (hstore : h.store d = .ok s)
    (hsync : h.sync d c = (.error e, h', d')) : h'.store d' = .ok s := by
  obtain ⟨rfl, rfl⟩ := eq_of_sync_error hsync
  exact hstore

/-- A database that cannot be written to is synced only if there is nothing to do. -/
theorem sync_of_syncFixed_ok {read : BundleFile → Except Error (List Bundle.Entry)}
    {stats : SyncStats} (hfixed : s.syncFixed read c = .ok stats) :
    s.sync read c = .ok (s, stats) := by
  unfold Store.syncFixed at hfixed
  cases hnoop : (s.syncStats c).isNoop with
  | true =>
      simp only [hnoop, if_true] at hfixed
      cases hfixed
      rw [Store.sync, if_pos hnoop]
  | false =>
      simp only [hnoop, Bool.false_eq_true, if_false] at hfixed
      split at hfixed
      · next b _ _ _ =>
          split at hfixed
          · obtain ⟨-, -, hnever⟩ := bind_eq_ok_iff.mp hfixed
            cases hnever
          · cases hfixed
      · cases hfixed

/-- **A sync that succeeds is one of the database.** -/
theorem store_of_sync_ok {stats : SyncStats} (hstore : h.store d = .ok s)
    (hsync : h.sync d c = (.ok stats, h', d')) :
    ∃ s', s.sync (tablesOn d) c = .ok (s', stats) ∧ h'.store d' = .ok s' := by
  unfold sync at hsync
  rw [hstore] at hsync
  simp only at hsync
  split at hsync
  · next hwritable =>
      split at hsync
      · cases hsync
      · next s' stats' hs' =>
          split at hsync
          -- nothing to do: the store is the old one and is not written
          · next hnoop =>
              cases hsync
              rcases Store.sync_cases hs' with ⟨-, rfl, -⟩ | ⟨hbusy, k, -, rfl⟩
              · exact ⟨s', hs', hstore⟩
              · exact absurd hnoop (by simpa [SyncStats.isNoop] using hbusy)
          · rw [Prod.mk.injEq] at hsync
            obtain ⟨hstats, hput⟩ := hsync
            cases hstats
            have hfound := store_put hstore hwritable s'
            rw [hput] at hfound
            exact ⟨s', hs', hfound⟩
  · rw [Prod.mk.injEq, Prod.mk.injEq] at hsync
    obtain ⟨hfixed, rfl, rfl⟩ := hsync
    exact ⟨s, sync_of_syncFixed_ok hfixed, hstore⟩

/-- A sync of a database in memory. -/
theorem sync_inMemory {s' : Store} {stats : SyncStats}
    (hsync : s.sync (tablesOn d) c = .ok (s', stats)) :
    (inMemory s).sync d c = (.ok stats, inMemory s', d) := by
  rcases Store.sync_cases hsync with ⟨hnoop, rfl, rfl⟩ | ⟨hbusy, k, -, rfl⟩
  · simp only [sync, store, isWritable, hsync, hnoop, if_true]
  · have hbusy' : ∀ k n, SyncStats.isNoop { s.syncStats c with
        recordsInserted := k, recordsDeleted := n } = false := fun _ _ => hbusy
    simp only [sync, store, isWritable, hsync, hbusy', if_true, Bool.false_eq_true, if_false, put]

end Handle

/-! ### Histories -/

/-- An index that was opened empty, after any number of syncs: the open index, the files beside it
and the corpus of the last sync that succeeded. -/
inductive SyncHistory (tables : Tables) : Handle → Files → Corpus → Prop where
  /-- A new index is opened; its corpus is the one without bundles. -/
  | opened {h : Handle} {d : Files} (root : String) (hstore : h.store d = .ok {}) :
      SyncHistory tables h d ⟨root, ∅⟩
  /-- Something else happens that leaves the database alone. -/
  | disturbed {h h' : Handle} {d d' : Files} {c : Corpus} (before : SyncHistory tables h d c)
      (hstore : h'.store d' = h.store d) : SyncHistory tables h' d' c
  /-- A sync fails. -/
  | failed {h h' : Handle} {d d' : Files} {c next : Corpus} {e : Error}
      (before : SyncHistory tables h d c) (hsync : h.sync d next = (.error e, h', d')) :
      SyncHistory tables h' d' c
  /-- A sync with a corpus that was scanned at some time succeeds. -/
  | succeeded {h h' : Handle} {d d' : Files} {c next : Corpus} {stats : SyncStats}
      (before : SyncHistory tables h d c)
      (hscan : ∃ past root, Corpus.scan past root = .ok next)
      (hread : ∀ b ∈ next.bundles, ∀ entries, tablesOn d b = .ok entries →
        entries = tables b.name b.size)
      (hsync : h.sync d next = (.ok stats, h', d')) : SyncHistory tables h' d' next

namespace SyncHistory

variable {tables : Tables} {h : Handle} {d : Files} {c : Corpus}

/-- The corpus of a history holds its bundles under their names. -/
theorem named (history : SyncHistory tables h d c) : c.Named := by
  induction history with
  | opened root _ => exact Corpus.named_empty root
  | disturbed _ _ ih => exact ih
  | failed _ _ ih => exact ih
  | succeeded _ hscan _ _ _ =>
      obtain ⟨past, root, hscan⟩ := hscan
      exact Corpus.named_of_scan hscan

/-- **After every history the database is in step with the corpus of the last sync that
succeeded.** -/
theorem inStep (history : SyncHistory tables h d c) :
    ∃ s, h.store d = .ok s ∧ s.InStep tables c := by
  induction history with
  | opened root hstore => exact ⟨{}, hstore, Store.inStep_new tables root⟩
  | disturbed _ hstore ih =>
      obtain ⟨s, hs, hstep⟩ := ih
      exact ⟨s, hstore.trans hs, hstep⟩
  | failed _ hsync ih =>
      obtain ⟨s, hs, hstep⟩ := ih
      exact ⟨s, Handle.store_of_sync_error hs hsync, hstep⟩
  | succeeded before hscan hread hsync ih =>
      obtain ⟨s, hs, hstep⟩ := ih
      obtain ⟨s', hs', hfound⟩ := Handle.store_of_sync_ok hs hsync
      obtain ⟨past, root, hscan⟩ := hscan
      exact ⟨s', hfound,
        Store.sync_inStep hstep.faithful (Corpus.named_of_scan hscan) hread hs'⟩

end SyncHistory

/-- **What an index holds depends on the corpus of the last successful sync alone.**  After every
history of syncs the indexed bundles are those of that corpus with their sizes, the rows of each of
them are those for its object table, in order and each once, and there are no other rows.  One sync
of a new index with that corpus gives the same, but for the numbers of the rows.  A next sync that
fails leaves the database as it is, and no query returns a record of a bundle that the corpus
lacks. -/
theorem SyncHistory.eq_fresh_sync {tables : Tables} {h : Handle} {d : Files} {c : Corpus}
    (history : SyncHistory tables h d c) :
    ∃ s, h.store d = .ok s ∧
      s.bundles.toList = c.bundles.map (fun b => (b.name, b.size)) ∧
      (∀ b ∈ c.bundles, s.content b.name = rowsOf b.name (tables b.name b.size)) ∧
      (∀ r ∈ s.images, ∃ b ∈ c.bundles, r.bundle = .text b.name) ∧
      (∃ fresh stats, Store.sync (fun b => .ok (tables b.name b.size)) {} c = .ok (fresh, stats) ∧
        fresh.bundles.toList = s.bundles.toList ∧
        ∀ name, fresh.content name = s.content name) ∧
      (∀ next e h' d', h.sync d next = (.error e, h', d') → h'.store d' = .ok s) ∧
      ∀ r, s.Returns r → ∃ b ∈ c.bundles, r.bundle = b.name := by
  have hc := history.named
  obtain ⟨s, hstore, hs⟩ := history.inStep
  obtain ⟨fresh, stats, hfresh⟩ : ∃ fresh stats,
      Store.sync (fun b => .ok (tables b.name b.size)) {} c = .ok (fresh, stats) :=
    Store.exists_sync rfl fun b _ => rfl
  have hfreshStep : fresh.InStep tables c :=
    Store.sync_inStep (Store.inStep_new tables "").faithful hc (by rintro b - entries ⟨⟩; rfl)
      hfresh
  refine ⟨s, hstore, hs.bundles_toList hc, fun b hb => hs.content_eq hc hb,
    fun r hr => hs.exists_bundle hc hr, ⟨fresh, stats, hfresh, ?_, ?_⟩, ?_, ?_⟩
  · rw [hfreshStep.bundles_toList hc, hs.bundles_toList hc]
  · exact fun name => hfreshStep.content_congr hs name
  · exact fun next e h' d' hsync => Handle.store_of_sync_error hstore hsync
  · intro r hr
    obtain ⟨row, hrow, hrecord⟩ := hr.exists_row
    obtain ⟨b, hb, hbundle⟩ := hs.exists_bundle hc hrow
    rw [Row.bundle_of_record? hrecord] at hbundle
    exact ⟨b, hb, Value.text.inj hbundle⟩

/-! ### A bundle that is replaced

A first sync finds a file that is no bundle, a second one the bundle `x`, and a third one the bundle
`y` in its place. -/

namespace Replaced

/-- The directory with a file that is no bundle. -/
def broken : Files :=
  (Corpus.diskWith "b" []).put ["b", "y.ab"] (.file (.bytes [0]))

/-- The directory with a texture and another object in the bundle `x`. -/
def first : Files :=
  Corpus.diskWith "b" [("x.ab", [.ofPicture .texture 7 "art" "" default, .other 5 "node" ""])]

/-- The directory with a sprite in the bundle `y`. -/
def last : Files :=
  Corpus.diskWith "b" [("y.ab", [.ofPicture .sprite 7 "art" "" default])]

/-- The bundles of the directory. -/
def corpusOf (d : Files) : Corpus :=
  Corpus.scanned d "/b"

/-- The tables of both bundles. -/
def tables : Tables := fun name _ =>
  match tablesOn (if name = "x" then first else last) ⟨name, 0, "/b/" ++ name ++ ".ab"⟩ with
  | .ok entries => entries
  | .error _ => []

/-- All that is asked of the bundles, in one evaluation. -/
theorem evaluated_bundles :
    ((Handle.inMemory {}).sync broken (corpusOf broken)).1.isOk = false ∧
    (∀ b ∈ (corpusOf first).bundles, tablesOn first b = .ok (tables b.name b.size)) ∧
    ∀ b ∈ (corpusOf last).bundles, tablesOn last b = .ok (tables b.name b.size) := by
  decide +kernel

/-- The failed sync and the first sync that succeeds. -/
theorem exists_history_first :
    ∃ s, SyncHistory tables (.inMemory s) first (corpusOf first) := by
  obtain ⟨hbroken, hfirst, -⟩ := evaluated_bundles
  have failed : SyncHistory tables (.inMemory {}) broken ⟨"", ∅⟩ := by
    rcases hsync : (Handle.inMemory {}).sync broken (corpusOf broken) with ⟨stats | e, h', d'⟩
    · obtain ⟨rfl, rfl⟩ := Handle.eq_of_sync_error hsync
      exact .failed (.opened "" rfl) hsync
    · rw [hsync] at hbroken
      cases hbroken
  obtain ⟨s, stats, hsync⟩ := Store.exists_sync (s := {}) (c := corpusOf first) rfl
    fun b hb => hfirst b (List.mem_of_mem_filter hb)
  have disturbed : SyncHistory tables (.inMemory {}) first ⟨"", ∅⟩ := .disturbed failed rfl
  exact ⟨s, .succeeded disturbed ⟨first, "/b", Corpus.scan_eq_scanned (by decide)⟩
    (fun b hb entries h => (Except.ok.inj ((hfirst b hb).symm.trans h)).symm)
    (Handle.sync_inMemory hsync)⟩

/-- The whole history. -/
theorem exists_history_last : ∃ h, SyncHistory tables h last (corpusOf last) := by
  obtain ⟨-, -, hlast⟩ := evaluated_bundles
  obtain ⟨s, history⟩ := exists_history_first
  obtain ⟨_, hs, hstep⟩ := history.inStep
  cases hs
  obtain ⟨s', stats, hsync⟩ := Store.exists_sync (c := corpusOf last) hstep.faithful.standard
    fun b hb => hlast b (List.mem_of_mem_filter hb)
  have disturbed : SyncHistory tables (.inMemory s) last (corpusOf first) := .disturbed history rfl
  exact ⟨.inMemory s', .succeeded disturbed ⟨last, "/b", Corpus.scan_eq_scanned (by decide)⟩
    (fun b hb entries h => (Except.ok.inj ((hlast b hb).symm.trans h)).symm)
    (Handle.sync_inMemory hsync)⟩

end Replaced

open Replaced in
theorem eq_fresh_sync_replaced :
    ∃ h, SyncHistory tables h last (corpusOf last) ∧
      ∃ s, h.store last = .ok s ∧
        s.bundles.toList = [("y", 53)] ∧
        (s.content "y").map Row.record? = [some ⟨7, "art", .sprite, 0, 0, "y", ""⟩] ∧
        (∀ r ∈ s.images, r.bundle = .text "y") ∧
        ∀ r, s.Returns r → r.bundle = "y" := by
  obtain ⟨h, history⟩ := exists_history_last
  obtain ⟨s, hstore, hbundles, hcontent, hrows, -, -, hreturns⟩ :=
    SyncHistory.eq_fresh_sync history
  have hlast : (corpusOf last).bundles = [⟨"y", 53, "/b/y.ab"⟩] := by decide +kernel
  rw [hlast] at hbundles hcontent hrows hreturns
  refine ⟨h, history, s, hstore, hbundles, ?_, fun r hr => ?_, fun r hr => ?_⟩
  · rw [hcontent ⟨"y", 53, "/b/y.ab"⟩ (by simp)]
    decide
  · obtain ⟨b, hb, hbundle⟩ := hrows r hr
    rw [hbundle, List.mem_singleton.mp hb]
  · obtain ⟨b, hb, hbundle⟩ := hreturns r hr
    rw [hbundle, List.mem_singleton.mp hb]

end CharacterArt.Index
