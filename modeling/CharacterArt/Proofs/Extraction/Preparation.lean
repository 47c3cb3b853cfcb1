import CharacterArt.Extraction
import CharacterArt.Proofs.Disk.Agreement
import CharacterArt.Proofs.Index.Opening

/-!
# Preparing an extraction

Before the first output an extraction writes nothing but its index.  What it plans depends on the
bundles, on the index and on the override table, so an extraction that finds these as an earlier one
left them plans the same again.

## Main Definitions

* `Extraction.indexPath` — the path of the index
* `Extraction.KeepsSources` — a disk on which everything is left that the plans depend on

## Main Results

* `Extraction.evolves_prepare` — what preparing changes
* `Extraction.prepare_again` — preparing once more
-/

namespace CharacterArt

/-- Two disks hold the same. -/
structure Disk.Matches {α : Type} (d d' : Disk α) : Prop where
  cwd_eq : d'.cwd = d.cwd
  node?_eq : ∀ m, d'.node? m = d.node? m

theorem Disk.matches_iff_agreesOn {α : Type} {d d' : Disk α} :
    d.Matches d' ↔ d.AgreesOn (fun _ => True) d' :=
  ⟨fun h => ⟨h.cwd_eq, fun m _ => h.node?_eq m⟩, fun h => ⟨h.cwd_eq, fun m => h.node?_eq m trivial⟩⟩

/-! ### What plans depend on -/

namespace Corpus

variable {c : Corpus} {d e : Files}

theorem decodeWhere_congr (h : c.openBundle e = c.openBundle d) :
    c.decodeWhere e = c.decodeWhere d := by
  funext name p
  rw [decodeWhere, h, decodeWhere]

theorem decodeOne_congr (h : c.openBundle e = c.openBundle d) : c.decodeOne e = c.decodeOne d := by
  funext name id kind
  rw [decodeOne, h, decodeOne]

/-- Bundles are read alike if their files are. -/
theorem readBundle_congr {b : BundleFile} (h : e.read b.path = d.read b.path) :
    readBundle e b = readBundle d b := by
  rw [readBundle, Files.readBytes, h, readBundle, Files.readBytes]

theorem openBundle_congr (hc : c.Named) (h : ∀ b ∈ c.bundles, e.read b.path = d.read b.path) :
    c.openBundle e = c.openBundle d := by
  funext name
  unfold openBundle
  cases hget : c.get? name with
  | none => rfl
  | some b =>
      obtain rfl := hc name b hget
      exact readBundle_congr (h b ((mem_bundles hc).mpr hget))

end Corpus

namespace Resolution

variable {s : Index.Store} {c : Corpus} {d e : Files}

theorem recover_congr (h : c.openBundle e = c.openBundle d) : recover s c e = recover s c d := by
  have hcolor : colorFor s c e = colorFor s c d := by
    funext mask
    rw [colorFor, Corpus.decodeOne_congr h, colorFor]
  have hone : recoverOne s c e = recoverOne s c d := by
    funext images r
    rw [recoverOne, hcolor, recoverOne]
  funext images rs
  rw [recover, hone, recover]

/-- **A resolution looks at bundles alone.** -/
theorem resolve_congr (h : c.openBundle e = c.openBundle d) (p : Precedence) (rs : Requirements) :
    resolve s c e p rs = resolve s c d p rs := by
  unfold resolve
  rw [Corpus.decodeWhere_congr h, recover_congr h]

end Resolution

namespace Sources

variable {s : Sources} {e : Files}

/-- The mask of an image depends on the bundles alone. -/
theorem maskFor_congr (h : s.corpus.openBundle e = s.corpus.openBundle s.disk) :
    ({ s with disk := e } : Sources).maskFor = s.maskFor := by
  have hdecode : MaskCache.decode s.corpus e = MaskCache.decode s.corpus s.disk := by
    funext cache r
    rw [MaskCache.decode, Corpus.decodeOne_congr h, MaskCache.decode]
  have hnamed : MaskCache.decodeNamed s.index s.corpus e =
      MaskCache.decodeNamed s.index s.corpus s.disk := by
    funext cache name
    rw [MaskCache.decodeNamed, hdecode, MaskCache.decodeNamed]
  funext cache q
  unfold maskFor
  dsimp only
  rw [hdecode, hnamed]

/-- **Plans depend on the bundles alone.** -/
theorem ofRequirements_congr (h : s.corpus.openBundle e = s.corpus.openBundle s.disk)
    (rs : Requirements) :
    Planning.ofRequirements { s with disk := e } rs = Planning.ofRequirements s rs := by
  have hadd : Planning.add { s with disk := e } = Planning.add s := by
    funext p r
    unfold Planning.add Planning.addOutput
    rw [maskFor_congr h]
    rfl
  rw [Planning.ofRequirements, hadd, Planning.ofRequirements]

end Sources

namespace Extraction

variable {x : Extraction} {rs : Requirements} {d opened e : Files} {c : Corpus}
  {store : Index.Store} {stats : Index.SyncStats} {p : Prepared}

/-- The path of the index. -/
def indexPath (x : Extraction) : String :=
  x.config.indexPathFor x.outputDir

/-! ### The index -/

/-- What is known of an index that was brought up to date. -/
structure IsSynced (x : Extraction) (d opened : Files) (c : Corpus) (store : Index.Store) : Prop where
  scan_eq : Corpus.scan d x.bundleDir = .ok c
  evolves : d.Evolves (Index.opening x.indexPath d.cwd) opened
  isTree : d.IsTree → opened.IsTree
  made : ∃ made, Files.makeDirs d ((Path.parent x.indexPath).getD "") = .ok made ∧
    ∀ m, made.node? m = some .directory → opened.node? m = some .directory
  index : (∃ a stats, Index.Address.ofText? x.indexPath = some a ∧ a.isTransient = true ∧
      a.isWritable = true ∧ Index.Store.sync (Index.tablesOn opened) {} c = .ok (store, stats)) ∨
    ∃ place a, Index.Ready x.indexPath opened place a store ∧ (store.syncStats c).isNoop = true

theorem isSynced_of_syncIndex (h : x.syncIndex d = (.ok (store, c, stats), opened)) :
    x.IsSynced d opened c store := by
  unfold syncIndex at h
  dsimp only at h
  split at h
  · cases h
  · next c' hscan =>
      have hc := Corpus.named_of_scan hscan
      split at h
      · cases h
      · next handle made hopen =>
          obtain ⟨hevolves, htree, ⟨above, habove, hkept⟩, hindex⟩ := Index.openPath_cases hopen
          split at h
          · cases h
          · next stats' handle' synced hsync =>
              obtain ⟨hstore, rfl⟩ := Prod.mk.inj h
              obtain ⟨found, hfound, heq⟩ := map_eq_ok_iff.mp hstore
              cases heq
              rcases hindex with ⟨rfl, a, ha, htransient, hwritable⟩ | ⟨place, a, t, rfl, hready⟩
              · -- a database in memory is made anew, and no file changes
                obtain ⟨s', hs', hstored⟩ := Index.Handle.store_of_sync_ok rfl hsync
                rw [Index.Handle.sync_inMemory hs'] at hsync
                cases hsync
                rw [hstored] at hfound
                cases hfound
                exact ⟨hscan, hevolves, htree, ⟨above, habove, hkept⟩,
                  .inl ⟨a, stats, ha, htransient, hwritable, hs'⟩⟩
              · obtain ⟨rfl, hput, t', hready', hnoop⟩ := hready.sync_cases hc hsync
                rw [hready'.store_eq] at hfound
                cases hfound
                have hfile : made.Evolves (Index.opening x.indexPath d.cwd) synced := by
                  refine hput.mono (fun _ => id) ?_ fun _ hl => absurd hl id
                  rintro l rfl
                  refine .inl (hevolves.cwd ▸ ?_)
                  exact hready.place?_eq
                exact ⟨hscan, hevolves.trans hfile, fun h => hready'.isTree (htree h) hput,
                  ⟨above, habove, fun m hm => hput.directory id (hkept m hm)⟩,
                  .inr ⟨place, a, hready', hnoop⟩⟩

/-- A disk on which everything is left that the plans of an extraction depend on. -/
structure KeepsSources (x : Extraction) (d opened e : Files) : Prop where
  cwd_eq : e.cwd = opened.cwd
  directory : ∀ m, opened.node? m = some .directory → e.node? m = some .directory
  scan_eq : Corpus.scan e x.bundleDir = Corpus.scan d x.bundleDir
  bundles : ∀ c, Corpus.scan d x.bundleDir = .ok c → ∀ b ∈ c.bundles,
    e.read b.path = opened.read b.path
  overrides : ∀ path, x.config.overrides = some path → e.read path = opened.read path
  index : ∀ place, Index.place? x.indexPath opened.cwd = some place →
    e.node? place = opened.node? place ∧ Index.isBlocked e place = false

/-- **An index that was brought up to date and was kept is up to date.** -/
theorem IsSynced.syncIndex_again (h : x.IsSynced d opened c store)
    (he : x.KeepsSources d opened e) :
    ∃ stats e', x.syncIndex e = (.ok (store, c, stats), e') ∧ e.Matches e' := by
  have hc := Corpus.named_of_scan h.scan_eq
  obtain ⟨made, hmade, hkept⟩ := h.made
  have hmade' : Files.makeDirs e ((Path.parent x.indexPath).getD "") = .ok e := by
    rw [Files.makeDirs_eq_ok_iff] at hmade ⊢
    exact Disk.makeDirs_of_makeDirs hmade (he.cwd_eq.trans h.evolves.cwd)
      fun m hm => he.directory m (hkept m hm)
  unfold syncIndex
  dsimp only
  rw [he.scan_eq, h.scan_eq]
  dsimp only
  rcases h.index with ⟨a, stats, ha, htransient, hwritable, hsync⟩ | ⟨place, a, hready, hnoop⟩
  · have hopen : Index.Handle.openPath e x.indexPath = (.ok (.inMemory {}), e) := by
      unfold Index.Handle.openPath
      rw [hmade']
      dsimp only
      rw [ha]
      dsimp only
      rw [if_pos htransient, if_pos hwritable]
    have hsync' : Index.Store.sync (Index.tablesOn e) {} c = .ok (store, stats) := by
      rw [← hsync]
      refine Index.Store.sync_congr fun b hb => ?_
      have hmem : b ∈ c.bundles := List.mem_of_mem_filter hb
      rw [Index.tablesOn, Corpus.readBundle_congr (he.bundles c h.scan_eq b hmem), Index.tablesOn]
    have hopen' : Index.Handle.openPath e (x.config.indexPathFor x.outputDir) =
        (.ok (.inMemory {}), e) := hopen
    rw [hopen']
    dsimp only
    rw [Index.Handle.sync_inMemory hsync']
    exact ⟨stats, e, rfl, rfl, fun _ => rfl⟩
  · obtain ⟨hnode, hfree⟩ := he.index place hready.place?_eq
    have hready' : Index.Ready x.indexPath e place a store :=
      hready.mono he.cwd_eq (he.directory _ hready.above) (hnode.trans hready.node_eq) hfree
        hready.isSetUp
    have hopen' : Index.Handle.openPath e (x.config.indexPathFor x.outputDir) =
        (.ok (.inFile place a.isWritable), Index.putStore e place store) :=
      hready'.openPath_eq hmade'
    have hput : Index.Ready x.indexPath (Index.putStore e place store) place a store := by
      refine hready'.mono rfl ?_ ?_ ?_ hready'.isSetUp
      · rw [hready'.node?_putStore, hready'.above]
      · rw [hready'.node?_putStore, hready'.node_eq]
      · rw [Index.isBlocked_putStore hready'.place_ne_nil, hfree]
    rw [hopen']
    dsimp only
    rw [Index.Handle.sync_of_isNoop (hput.store_eq _) hnoop]
    dsimp only
    rw [hput.store_eq]
    exact ⟨_, _, rfl, rfl, hready'.node?_putStore⟩

/-! ### Everything before the first output -/

theorem overrideTable_congr (h : ∀ path, x.config.overrides = some path → e.read path = d.read path) :
    x.overrideTable e = x.overrideTable d := by
  unfold overrideTable
  split
  · rfl
  · next path hpath =>
      rw [Files.readText, Files.readBytes, h path hpath, Files.readText, Files.readBytes]

/-- **What is planned depends on the bundles and the override table.** -/
theorem planOutputs_congr (hopen : c.openBundle e = c.openBundle d)
    (hoverrides : x.overrideTable e = x.overrideTable d) (store : Index.Store) (rs : Requirements) :
    x.planOutputs e store c rs = x.planOutputs d store c rs := by
  unfold planOutputs
  rw [Resolution.resolve_congr hopen, hoverrides]
  refine congrArg _ (funext fun resolution => congrArg _ (funext fun overrides => ?_))
  refine congrArg _ (funext fun masks => ?_)
  exact congrArg (fun planning => pure (resolution, planning))
    (Sources.ofRequirements_congr (s := ⟨store, c, d, _, _, _⟩) hopen rs)

/-- What preparing consists of. -/
theorem exists_of_prepare (h : x.prepare rs d = (.ok p, opened)) : ∃ store c stats,
    x.syncIndex d = (.ok (store, c, stats), opened) ∧
      x.planOutputs opened store c rs = .ok (p.resolution, p.planning) := by
  unfold prepare at h
  split at h
  · cases h
  · next store c stats synced hsync =>
      obtain ⟨hplanned, rfl⟩ := Prod.mk.inj h
      obtain ⟨⟨resolution, planning⟩, hparts, rfl⟩ := map_eq_ok_iff.mp hplanned
      exact ⟨store, c, stats, hsync, hparts⟩

/-- Preparing leaves a tree. -/
theorem isTree_prepare (h : x.prepare rs d = (.ok p, opened)) (htree : d.IsTree) : opened.IsTree := by
  obtain ⟨store, c, stats, hsync, -⟩ := exists_of_prepare h
  exact (isSynced_of_syncIndex hsync).isTree htree

/-- **Preparing changes the index alone.** -/
theorem evolves_prepare (h : x.prepare rs d = (.ok p, opened)) :
    d.Evolves (Index.opening x.indexPath d.cwd) opened := by
  obtain ⟨store, c, stats, hsync, -⟩ := exists_of_prepare h
  exact (isSynced_of_syncIndex hsync).evolves

/-- **Where everything is left that the plans depend on, the same is planned again, and nothing
changes.** -/
theorem prepare_again (h : x.prepare rs d = (.ok p, opened)) (he : x.KeepsSources d opened e) :
    ∃ p' e', x.prepare rs e = (.ok p', e') ∧ p'.resolution = p.resolution ∧
      p'.planning = p.planning ∧ e.Matches e' := by
  obtain ⟨store, c, stats, hsync, hplanned⟩ := exists_of_prepare h
  have hsynced := isSynced_of_syncIndex hsync
  have hc := Corpus.named_of_scan hsynced.scan_eq
  obtain ⟨stats', e', hsync', hmatches⟩ := hsynced.syncIndex_again he
  -- what is read from the disk after the second sync is what is read before it
  have hread : ∀ path, e'.read path = e.read path := fun path =>
    Disk.read_congr hmatches.cwd_eq fun m _ => hmatches.node?_eq m
  have hopen : c.openBundle e' = c.openBundle opened :=
    Corpus.openBundle_congr hc fun b hb =>
      (hread b.path).trans (he.bundles c hsynced.scan_eq b hb)
  have hoverrides : x.overrideTable e' = x.overrideTable opened :=
    overrideTable_congr fun path hpath => (hread path).trans (he.overrides path hpath)
  refine ⟨⟨stats', p.resolution, p.planning⟩, e', ?_, rfl, rfl, hmatches⟩
  unfold prepare
  rw [hsync']
  dsimp only
  rw [planOutputs_congr hopen hoverrides, hplanned]
  rfl

end Extraction

end CharacterArt
