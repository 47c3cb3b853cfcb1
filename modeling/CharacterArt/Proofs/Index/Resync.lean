import CharacterArt.Proofs.Index.SyncHistory

/-!
# Syncs with nothing to do

After a sync the bundles are those of the corpus, whatever the tables of the database are like.  So
the same sync once more has nothing to do, and it leaves the database alone.

## Main Results

* `Store.isNoop_iff` — when a sync has nothing to do
* `Store.isNoop_of_sync` — a sync once more
* `Store.sync_congr` — a sync looks only at the tables of the bundles that it puts in
* `Handle.sync_of_isNoop` — a sync of an open index with nothing to do
* `Handle.exists_store_of_sync` — what an open index holds after a sync
-/

namespace CharacterArt.Index

namespace Store

variable {s s' : Store} {c : Corpus} {read read' : BundleFile → Except Error (List Bundle.Entry)}
  {stats : SyncStats}

/-- **A sync has nothing to do exactly if the bundles are those of the corpus.** -/
theorem isNoop_iff (hc : c.Named) : (s.syncStats c).isNoop = true ↔
    ∀ name, s.bundles[name]? = (c.get? name).map BundleFile.size := by
  rw [isNoop_syncStats, List.eq_nil_iff_forall_not_mem, List.eq_nil_iff_forall_not_mem]
  simp only [mem_added hc, mem_removed, not_and, not_exists, not_not]
  constructor
  · rintro ⟨hadded, hremoved⟩ name
    cases hsize : s.bundles[name]? with
    | some size => exact (hremoved name size hsize).symm
    | none =>
        cases hget : c.get? name with
        | none => rfl
        | some b =>
            obtain rfl := hc name b hget
            rw [hadded b hget] at hsize
            cases hsize
  · refine fun heq => ⟨fun b hget => ?_, fun name size hsize => ?_⟩
    · rw [heq, hget]
      rfl
    · rw [← heq, hsize]

/-- What putting bundles in does to the rest of a store. -/
structure Grows (s : Store) (bs : List BundleFile) (s' : Store) : Prop where
  table_eq : s'.table = s.table
  stage_eq : s'.stage = s.stage
  others : ∀ name ∉ bs.map BundleFile.name, s'.bundles[name]? = s.bundles[name]?
  gained : ∀ b ∈ bs, s'.bundles[b.name]? = some b.size

/-- One bundle comes in. -/
theorem grows_of_addBundle {b : BundleFile} {start n : Nat}
    (h : addBundle read (s, start) b = .ok (s', n)) : s.Grows [b] s' := by
  obtain ⟨entries, -, h⟩ := bind_eq_ok_iff.mp h
  obtain ⟨t, ht, h⟩ := bind_eq_ok_iff.mp h
  cases h
  unfold withBundle at ht
  split at ht
  · split at ht
    · cases ht
      refine ⟨rfl, rfl, fun name hname => ?_, fun b' hb' => ?_⟩
      · have hne : b.name ≠ name := by simpa [eq_comm] using hname
        rw [Std.TreeMap.getElem?_insert, if_neg]
        simpa using hne
      · rw [List.mem_singleton.mp hb']
        simp
    · cases ht
  · cases ht

/-- Bundles of different names come in. -/
theorem grows_of_withBundles {bs : List BundleFile} {start k : Nat}
    (hnames : (bs.map BundleFile.name).Nodup)
    (h : bs.foldlM (addBundle read) (s, start) = .ok (s', k)) : s.Grows bs s' := by
  induction bs generalizing s start with
  | nil =>
      cases h
      exact ⟨rfl, rfl, fun _ _ => rfl, fun b hb => absurd hb List.not_mem_nil⟩
  | cons b rest ih =>
      rw [List.map_cons, List.nodup_cons] at hnames
      rw [List.foldlM_cons] at h
      obtain ⟨⟨t, n⟩, hfirst, h⟩ := bind_eq_ok_iff.mp h
      have hone := grows_of_addBundle hfirst
      have hmore := ih hnames.2 h
      refine ⟨hmore.table_eq.trans hone.table_eq, hmore.stage_eq.trans hone.stage_eq, ?_, ?_⟩
      · intro name hname
        rw [List.map_cons, List.mem_cons, not_or] at hname
        rw [hmore.others name hname.2, hone.others name (by simpa using hname.1)]
      · intro b' hb'
        rcases List.mem_cons.mp hb' with rfl | hb'
        · rw [hmore.others _ hnames.1, hone.gained _ (List.mem_singleton_self _)]
        · exact hmore.gained b' hb'

/-- A sync leaves the table of images as it is set up. -/
theorem table_eq_of_sync (hc : c.Named) (h : s.sync read c = .ok (s', stats)) :
    s'.table = s.table ∧ s'.stage = s.stage := by
  rcases sync_cases h with ⟨-, rfl, -⟩ | ⟨-, k, hadd, -⟩
  · exact ⟨rfl, rfl⟩
  · have hgrows := grows_of_withBundles (nodup_added hc) hadd
    exact ⟨hgrows.table_eq, hgrows.stage_eq⟩

/-- **The same sync once more has nothing to do.** -/
theorem isNoop_of_sync (hc : c.Named) (h : s.sync read c = .ok (s', stats)) :
    (s'.syncStats c).isNoop = true := by
  rcases sync_cases h with ⟨hnoop, rfl, -⟩ | ⟨-, k, hadd, -⟩
  · exact hnoop
  · have hgrows := grows_of_withBundles (nodup_added hc) hadd
    rw [isNoop_iff hc]
    intro name
    by_cases hname : name ∈ (s.added c).map BundleFile.name
    · obtain ⟨b, hb, rfl⟩ := List.mem_map.mp hname
      rw [hgrows.gained b hb, ((mem_added hc).mp hb).1]
      rfl
    · rw [hgrows.others name hname, getElem?_kept]
      split
      · next heq => exact heq
      · next hne =>
          -- a bundle that was taken out and not put in again is not in the corpus
          cases hget : c.get? name with
          | none => rfl
          | some b =>
              obtain rfl := hc name b hget
              refine absurd (List.mem_map_of_mem ((mem_added hc).mpr ⟨hget, ?_⟩)) hname
              rwa [hget] at hne

/-- Putting bundles in looks only at their tables. -/
theorem withBundles_congr {bs : List BundleFile} (hread : ∀ b ∈ bs, read b = read' b) (s : Store) :
    withBundles read s bs = withBundles read' s bs := by
  unfold withBundles
  generalize (s, 0) = start
  induction bs generalizing start with
  | nil => rfl
  | cons b rest ih =>
      have hstep : addBundle read start b = addBundle read' start b := by
        rw [addBundle, hread b List.mem_cons_self, addBundle]
      rw [List.foldlM_cons, List.foldlM_cons, hstep]
      exact congrArg _ (funext fun next => ih (fun b' hb' => hread b' (List.mem_cons_of_mem b hb')) next)

/-- **A sync looks only at the tables of the bundles that it puts in.** -/
theorem sync_congr (hread : ∀ b ∈ s.added c, read b = read' b) : s.sync read c = s.sync read' c := by
  have hadded : ∀ t, withBundles read t (s.added c) = withBundles read' t (s.added c) :=
    withBundles_congr hread
  unfold sync
  simp only [hadded]

end Store

/-- A sync of an open index with nothing to do leaves everything as it is. -/
theorem Handle.sync_of_isNoop {h : Handle} {d : Files} {c : Corpus} {s : Store}
    (hstore : h.store d = .ok s) (hnoop : (s.syncStats c).isNoop = true) :
    h.sync d c = (.ok (s.syncStats c), h, d) := by
  unfold sync
  rw [hstore]
  dsimp only
  split
  · rw [Store.sync, if_pos hnoop]
    dsimp only
    rw [if_pos hnoop]
  · rw [Store.syncFixed, if_pos hnoop]

/-- **After a sync of an open index its bundles are those of the corpus.** -/
theorem Handle.exists_store_of_sync {h h' : Handle} {d d' : Files} {c : Corpus} {stats : SyncStats}
    (hc : c.Named) (hsync : h.sync d c = (.ok stats, h', d')) :
    ∃ s, h'.store d' = .ok s ∧ ∀ name, s.bundles[name]? = (c.get? name).map BundleFile.size := by
  cases hstore : h.store d with
  | error e =>
      rw [sync, hstore] at hsync
      cases hsync
  | ok s =>
      obtain ⟨s', hs', hstore'⟩ := store_of_sync_ok hstore hsync
      exact ⟨s', hstore', (Store.isNoop_iff hc).mp (Store.isNoop_of_sync hc hs')⟩

end CharacterArt.Index
