import CharacterArt.Extraction
import CharacterArt.Proofs.Alpha.Group
import CharacterArt.Proofs.Index.Resync
import CharacterArt.Proofs.Index.Tracking

/-!
# Nothing that is indexed is lost

Resolutions and plans decode objects whose records the index returned.  So if the index tracks the
corpus, then neither of them meets a bundle that is not there, or an object that its bundle lacks.
This rests on names and sizes of bundles: where a file gives way to another one of its size, a sync
has nothing to do, and the record of what is gone stays.

## Main Definitions

* `Words` — a reason words a failure of a mask
* `Sources.Track` — the masks that plans take from the index are those of one that tracks its corpus

## Main Results

* `Resolution.failsOnly_resolve` — how a resolution fails
* `Planning.tells_ofRequirements` — what is reported of masks
* `Index.SyncHistory.finds_objects` — every record leads to its object
-/

namespace CharacterArt

variable {s : Index.Store} {c : Corpus} {d : Files}

theorem Corpus.failsOnly_decodeWhere (hc : c.Named) {b : BundleFile} (hb : b ∈ c.bundles)
    (q : Bundle.Entry → Bool) : FailsOnly Error.IsOfReading (c.decodeWhere d b.name q) := by
  refine FailsOnly.bind (failsOnly_openBundle hc hb d) fun opened _ => FailsOnly.mapM ?_
  intro e he
  have hselected := List.of_mem_filter he
  rw [Bool.and_eq_true] at hselected
  exact Bundle.failsOnly_decode hselected.1

theorem Copies.nothingLost_ofList (p : Precedence) (assets : List Asset) :
    NothingLost (ofList p assets) := by
  have hchoose : ∀ copies a, NothingLost (choose p copies a) := by
    intro copies a
    unfold choose
    split
    · exact FailsOnly.ok _
    · split
      · exact FailsOnly.ok _
      · exact FailsOnly.ok _
      · exact FailsOnly.error id
  exact FailsOnly.foldlM hchoose assets {}

namespace Resolution

/-- The bundles to open are those of records that the index returned. -/
theorem exists_returns {ids : List PathId} {names : List String} {name : String}
    (h : bundlesWith s ids = .ok names) (hname : name ∈ names) :
    ∃ r, s.Returns r ∧ r.bundle = name := by
  obtain ⟨textures, htextures, h⟩ := bind_eq_ok_iff.mp h
  obtain ⟨sprites, hsprites, h⟩ := bind_eq_ok_iff.mp h
  cases h
  rw [List.mem_mergeSort, List.mem_eraseDups] at hname
  obtain ⟨r, hr, rfl⟩ := List.mem_map.mp hname
  refine ⟨r, ?_, rfl⟩
  rcases List.mem_append.mp hr with hr | hr
  · exact .lookup htextures hr
  · exact .lookup hsprites hr

theorem failsOnly_bundlesWith (s : Index.Store) (ids : List PathId) :
    FailsOnly Error.IsOfDatabase (bundlesWith s ids) := by
  refine FailsOnly.bind (Index.failsOnly_records _) fun textures _ => ?_
  exact FailsOnly.bind (Index.failsOnly_records _) fun sprites _ => FailsOnly.ok _

/-- What is found by name is a record that a query returned. -/
theorem returns_of_findNamed {name : String} {r : Record} (h : findNamed s name = .ok (some r)) :
    s.Returns r := by
  obtain ⟨found, hfound, h⟩ := bind_eq_ok_iff.mp h
  cases found with
  | some record =>
      cases h
      exact .findByName hfound
  | none => exact .findByName h

theorem failsOnly_findNamed (s : Index.Store) (name : String) :
    FailsOnly Error.IsOfDatabase (findNamed s name) := by
  refine FailsOnly.bind (s.failsOnly_findByName? name .texture) fun found _ => ?_
  cases found with
  | some record => exact FailsOnly.ok _
  | none => exact s.failsOnly_findByName? name .sprite

theorem nothingLost_colorFor (h : s.Tracks c d) (mask : Asset) :
    NothingLost (colorFor s c d mask) := by
  unfold colorFor
  split
  · exact FailsOnly.ok _
  · next name _ =>
      refine (NothingLost.of_database (failsOnly_findNamed s name)).bind fun found hfound => ?_
      cases found with
      | none => exact FailsOnly.ok _
      | some record =>
          have hdecode := h.failsOnly_decodeOne (returns_of_findNamed hfound)
          exact (NothingLost.of_reading hdecode).bind fun color _ => FailsOnly.ok _

theorem nothingLost_recover (h : s.Tracks c d) (images : Std.TreeMap PathId Asset)
    (rs : Requirements) : NothingLost (recover s c d images rs) := by
  refine FailsOnly.foldlM (fun images req => ?_) rs images
  unfold recoverOne
  split
  · exact FailsOnly.ok _
  · split
    · exact FailsOnly.ok _
    · next mask _ =>
        refine (nothingLost_colorFor h mask).bind fun color _ => ?_
        cases color <;> exact FailsOnly.ok _

/-- **A resolution by an index that tracks its corpus loses nothing.** -/
theorem nothingLost_resolve (h : s.Tracks c d) (p : Precedence) (rs : Requirements) :
    NothingLost (resolve s c d p rs) := by
  refine (NothingLost.of_database (failsOnly_bundlesWith s _)).bind fun names hnames => ?_
  have hdecode : ∀ name ∈ names,
      NothingLost (c.decodeWhere d name (isWanted (Requirements.ids rs))) := by
    intro name hname
    obtain ⟨r, hr, rfl⟩ := exists_returns hnames hname
    obtain ⟨b, hb, hbundle⟩ := h.exists_bundle hr
    rw [← hbundle]
    exact NothingLost.of_reading (Corpus.failsOnly_decodeWhere h.named hb _)
  refine (FailsOnly.mapM hdecode).bind fun parts _ => ?_
  refine (Copies.nothingLost_ofList p _).bind fun copies _ => ?_
  exact (nothingLost_recover h copies.merged rs).bind fun images _ => FailsOnly.ok _

end Resolution

/-! ### Masks that are decoded for plans -/

namespace MaskCache

/-- The object of a record that a query returned is not lost. -/
theorem nothingLost_decode (h : s.Tracks c d) (cache : MaskCache) {r : Record}
    (hr : s.Returns r) : NothingLost (decode c d cache r).1 := by
  have hdecode := NothingLost.of_reading (h.failsOnly_decodeOne hr)
  unfold decode
  split
  · exact FailsOnly.ok _
  · split
    · exact FailsOnly.ok _
    · next e herror => exact FailsOnly.error (hdecode e herror)

/-- An object that is found by its name is not lost. -/
theorem nothingLost_decodeNamed (h : s.Tracks c d) (cache : MaskCache) (name : String) :
    NothingLost (decodeNamed s c d cache name).1 := by
  have hfind := NothingLost.of_database (Resolution.failsOnly_findNamed s name)
  unfold decodeNamed
  split
  · next e herror => exact FailsOnly.error (hfind e herror)
  · exact FailsOnly.ok _
  · next r hr => exact (nothingLost_decode h cache (Resolution.returns_of_findNamed hr)).map _

end MaskCache

/-- A mask that the matcher takes from the index is one of its catalog. -/
theorem Alpha.Matcher.exists_of_indexed {m : Matcher} {q : Query} {r : Record}
    (h : (m.find? q).map MaskMatch.source = some (.indexed r)) :
    ∃ name, m.catalog.find? name = some r := by
  obtain ⟨found, hfound, hsource⟩ := Option.map_eq_some_iff.mp h
  have hbyName : ∀ name inGroup inCatalog, m.byName name inGroup inCatalog = some found →
      ∃ name, m.catalog.find? name = some r := by
    intro name inGroup inCatalog hname
    unfold byName at hname
    dsimp only at hname
    split at hname
    · cases hname
      cases hsource
    · obtain ⟨record, hrecord, rfl⟩ := Option.map_eq_some_iff.mp hname
      cases hsource
      exact ⟨_, hrecord⟩
  rw [find?, Option.or_eq_some_iff, Option.or_eq_some_iff, Option.or_eq_some_iff] at hfound
  -- the rules in their order; only those that go by names look into the catalog
  rcases hfound with hrequired | ⟨-, hname | ⟨-, hbase | ⟨-, hoverride⟩⟩⟩
  · unfold byRequirement at hrequired
    split at hrequired
    · split at hrequired
      · cases hrequired
        cases hsource
      · cases hrequired
    · cases hrequired
  · exact hbyName _ _ _ hname
  · obtain ⟨base, -, hname⟩ := Option.bind_eq_some_iff.mp hbase
    exact hbyName _ _ _ hname
  · obtain ⟨target, -, rfl⟩ := Option.map_eq_some_iff.mp hoverride
    cases target <;> cases hsource

/-- A reason words a failure of a kind, of a mask that was found or of one that is overridden. -/
def Words (P : Error → Prop) (reason : String) : Prop :=
  ∃ e, P e ∧ (reason = e.message ∨ ∃ name, reason = "override asset " ++ name ++ ": " ++ e.message)

/-- What plans are made from, where an index that tracks its corpus gives the catalog of masks. -/
structure Sources.Track (x : Sources) : Prop where
  index : x.index.Tracks x.corpus x.disk
  catalog : ∃ records, x.index.maskTextures = .ok records ∧
    x.matcher.catalog = Alpha.MaskCatalog.ofRecords records

/-- If the mask of an image cannot be read, then not because it was lost. -/
theorem Sources.Track.words {x : Sources} (h : x.Track) {cache : MaskCache} {q : Alpha.Query}
    {reason : String} (hfailed : (x.maskFor cache q).1 = .failed reason) :
    Words (fun e => ¬ e.IsLost) reason := by
  unfold maskFor at hfailed
  split at hfailed
  · cases hfailed
  · cases hfailed
  · next r hindexed =>
      obtain ⟨records, hrecords, hcatalog⟩ := h.catalog
      obtain ⟨name, hname⟩ := Alpha.Matcher.exists_of_indexed hindexed
      rw [hcatalog] at hname
      have hreturns : x.index.Returns r :=
        .maskTextures hrecords (Alpha.MaskCatalog.mem_of_find?_ofRecords hname)
      have hdecode := MaskCache.nothingLost_decode h.index cache hreturns
      split at hfailed
      · cases hfailed
      · next e _ herror =>
          cases hfailed
          exact ⟨e, hdecode e (by rw [herror]), .inl rfl⟩
  · next name _ =>
      have hdecode := MaskCache.nothingLost_decodeNamed h.index cache name
      split at hfailed
      · cases hfailed
      · cases hfailed
      · next e _ herror =>
          cases hfailed
          exact ⟨e, hdecode e (by rw [herror]), .inr ⟨name, rfl⟩⟩
  · cases hfailed

namespace Planning

variable {x : Sources} {p : Planning}

/-- **One more requirement is reported only for a mask that was not lost.** -/
theorem words_add (h : x.Track) (hp : ∀ dg ∈ p.diagnostics, Words (fun e => ¬ e.IsLost) dg.reason)
    (r : Requirement) :
    ∀ dg ∈ (p.add x r).diagnostics, Words (fun e => ¬ e.IsLost) dg.reason := by
  unfold add
  split
  · exact hp
  · next color _ =>
      dsimp only
      split
      · exact hp
      · unfold addOutput
        dsimp only
        split
        · exact hp
        · next reason hchoice =>
            have hfailed : (x.maskFor p.masks (x.queryOf r color)).1 = .failed reason := by
              cases hmask : (x.maskFor p.masks (x.queryOf r color)).1 <;> rw [hmask] at hchoice <;>
                cases hchoice
              rfl
            intro dg hdg
            rcases List.mem_append.mp hdg with hdg | hdg
            · exact hp dg hdg
            · rw [List.mem_singleton] at hdg
              subst hdg
              exact h.words hfailed

/-- **What is reported of masks never is that one was lost.** -/
theorem words_ofRequirements (h : x.Track) (rs : Requirements) :
    ∀ dg ∈ (ofRequirements x rs).diagnostics, Words (fun e => ¬ e.IsLost) dg.reason := by
  have hrun : ∀ p : Planning, (∀ dg ∈ p.diagnostics, Words (fun e => ¬ e.IsLost) dg.reason) →
      ∀ dg ∈ (rs.foldl (add x) p).diagnostics, Words (fun e => ¬ e.IsLost) dg.reason := by
    induction rs with
    | nil => exact fun p hp => hp
    | cons r rest ih => exact fun p hp => ih _ (words_add h hp r)
  exact hrun {} fun dg hdg => absurd hdg List.not_mem_nil

end Planning

namespace Extraction

/-- Reading the override table loses nothing. -/
theorem nothingLost_overrideTable (x : Extraction) (d : Files) :
    NothingLost (x.overrideTable d) := by
  have hread : ∀ path, NothingLost (Files.readText d path) := by
    intro path
    refine FailsOnly.bind ?_ fun bytes _ => ?_
    · unfold Files.readBytes
      split
      · exact FailsOnly.ok _
      · exact FailsOnly.error id
    · split
      · exact FailsOnly.ok _
      · exact FailsOnly.error id
  have hadd : ∀ table o, NothingLost (Alpha.OverrideTable.add table o) := by
    intro table o
    unfold Alpha.OverrideTable.add
    split
    · exact FailsOnly.ok _
    · exact FailsOnly.error id
  have hparse : ∀ text, NothingLost (Alpha.OverrideTable.parse text) := by
    intro text
    unfold Alpha.OverrideTable.parse
    split
    · exact FailsOnly.foldlM hadd _ _
    · exact FailsOnly.error id
  unfold overrideTable
  split
  · exact FailsOnly.ok _
  · next path _ => exact (hread path).bind fun text _ => hparse text

/-- **Planning by an index that tracks its corpus loses nothing**, and reports no mask as lost. -/
theorem nothingLost_planOutputs (h : s.Tracks c d) (x : Extraction) (rs : Requirements) :
    NothingLost (x.planOutputs d s c rs) ∧
      ∀ resolution planning, x.planOutputs d s c rs = .ok (resolution, planning) →
        ∀ dg ∈ planning.diagnostics, Words (fun e => ¬ e.IsLost) dg.reason := by
  have hmasks : NothingLost s.maskTextures := NothingLost.of_database (Index.failsOnly_records _)
  refine ⟨?_, fun resolution planning hplan => ?_⟩
  · refine (Resolution.nothingLost_resolve h x.config.precedence rs).bind fun _ _ => ?_
    refine (nothingLost_overrideTable x d).bind fun _ _ => ?_
    exact hmasks.bind fun _ _ => FailsOnly.ok _
  · obtain ⟨found, -, hplan⟩ := bind_eq_ok_iff.mp hplan
    obtain ⟨overrides, -, hplan⟩ := bind_eq_ok_iff.mp hplan
    obtain ⟨records, hrecords, hplan⟩ := bind_eq_ok_iff.mp hplan
    cases hplan
    have htrack : Sources.Track ⟨s, c, d, resolution.images,
        ⟨resolution.group, Alpha.MaskCatalog.ofRecords records, overrides⟩, x.config.nameKeys⟩ :=
      ⟨h, records, hrecords, rfl⟩
    exact Planning.words_ofRequirements htrack rs

end Extraction

/-- **The index never points at an object that the corpus cannot find.**  After every history of
syncs, in which a name and a size stand for one table, every record that a query returns names a
bundle of the corpus of the last successful sync.  If the bundle can be opened, then the object that
is decoded for the record is an entry of its number and kind, and where that entry is the only one it
has all that the record says.  So decoding fails only if a file cannot be read, and neither a
resolution nor the decoding of masks for plans ends in a bundle or an object that is not there. -/
theorem Index.SyncHistory.finds_objects {tables : Index.Tables} {h : Index.Handle} {d : Files}
    {c : Corpus} (history : Index.SyncHistory tables h d c)
    (hread : ∀ b ∈ c.bundles, ∀ entries, Index.tablesOn d b = .ok entries →
      entries = tables b.name b.size) :
    ∃ s, h.store d = .ok s ∧
      (∀ r, s.Returns r →
        (∃ b ∈ c.bundles, b.name = r.bundle) ∧
        FailsOnly Error.IsOfReading (c.decodeOne d r.bundle r.pathId r.kind) ∧
        ∀ opened, c.openBundle d r.bundle = .ok opened →
          ∃ e ∈ opened.entries, e.describes r.pathId r.kind = true ∧
            c.decodeOne d r.bundle r.pathId r.kind = opened.decode e ∧
            ((opened.entries.filter (Bundle.Entry.describes r.pathId r.kind)).length = 1 →
              Index.recordOf? r.bundle e = some r)) ∧
      (∀ p rs, NothingLost (resolve s c d p rs)) ∧
      (∀ cache name, NothingLost (MaskCache.decodeNamed s c d cache name).1) ∧
      (∀ cache r, s.Returns r → NothingLost (MaskCache.decode c d cache r).1) ∧
      ∀ (x : Extraction) rs, NothingLost (x.planOutputs d s c rs) ∧
        ∀ resolution planning, x.planOutputs d s c rs = .ok (resolution, planning) →
          ∀ dg ∈ planning.diagnostics, Words (fun e => ¬ e.IsLost) dg.reason := by
  obtain ⟨s, hstore, htracks⟩ := history.tracks hread
  refine ⟨s, hstore, fun r hr => ?_, fun p rs => Resolution.nothingLost_resolve htracks p rs,
    fun cache name => MaskCache.nothingLost_decodeNamed htracks cache name,
    fun cache r hr => MaskCache.nothingLost_decode htracks cache hr,
    fun x rs => Extraction.nothingLost_planOutputs htracks x rs⟩
  exact ⟨htracks.exists_bundle hr, htracks.failsOnly_decodeOne hr, fun opened hopened =>
    htracks.exists_selected hr hopened⟩

/-! ### A file that gives way to another one of its size

The bundle `x` holds a color whose mask is in the bundle `m`.  After a first sync another file of the
same size takes its place, with the color under another number. -/

namespace Stale

/-- The directory with the color under a given number. -/
def filesWith (id : PathId) : Files :=
  Corpus.diskWith "b" [
    ("m.ab", [.ofPicture .texture 5 "hero_alpha" "" default]),
    ("x.ab", [.ofPicture .texture id "hero" "" default, .ofPicture .sprite id "hero" "" default])]

def before : Files :=
  filesWith 1

def after : Files :=
  filesWith 2

/-- The bundles of the directory. -/
def corpusOf (d : Files) : Corpus :=
  Corpus.scanned d "/b"

/-- The index after the first sync. -/
def store : Index.Store :=
  .fresh (corpusOf before) before

/-- A requirement whose color is known by the name of its mask alone. -/
def requirements : Requirements :=
  [{ owner := "A", index := 0, colorId := 9, alphaId := 5 }]

/-- All that is asked of the first files, in one evaluation. -/
theorem evaluated_before :
    (Corpus.scan before "/b").isOk = true ∧
    (∀ b ∈ (corpusOf before).bundles,
      Index.tablesOn before b = .ok ((corpusOf before).tables before b.name b.size)) ∧
    store.findByName? "hero" .texture = .ok (some ⟨1, "hero", .texture, 0, 0, "x", ""⟩) ∧
    ((corpusOf before).openBundle before "x").toOption.any (fun opened =>
      (opened.entries.filter (Bundle.Entry.describes 1 .texture)).length == 1) = true := by
  decide +kernel

theorem scan_before : Corpus.scan before "/b" = .ok (corpusOf before) :=
  Corpus.scan_eq_scanned evaluated_before.1

theorem tablesOn_before : ∀ b ∈ (corpusOf before).bundles,
    Index.tablesOn before b = .ok ((corpusOf before).tables before b.name b.size) :=
  evaluated_before.2.1

theorem synced : store.InSync (corpusOf before) before ∧
    ∃ stats, Index.Store.sync (Index.tablesOn before) {} (corpusOf before) = .ok (store, stats) :=
  Index.Store.inSync_fresh scan_before fun b hb => by
    rw [tablesOn_before b hb]
    rfl

/-- The index after the first sync, as a history. -/
theorem history : Index.SyncHistory ((corpusOf before).tables before) (.inMemory store) before
    (corpusOf before) := by
  obtain ⟨-, stats, hsync⟩ := synced
  exact .succeeded (.opened "" rfl) ⟨before, "/b", scan_before⟩
    (fun b hb entries h => (Except.ok.inj ((tablesOn_before b hb).symm.trans h)).symm)
    (Index.Handle.sync_inMemory hsync)

/-- The record of the first texture is found by its name. -/
theorem findByName?_store : store.findByName? "hero" .texture =
    .ok (some ⟨1, "hero", .texture, 0, 0, "x", ""⟩) :=
  evaluated_before.2.2.1

/-- The other file has the size of the first one, so a sync has nothing to do. -/
theorem sync_after : (Index.Handle.inMemory store).sync after (corpusOf after) =
    (.ok { unchanged := 2 }, .inMemory store, after) := by
  have hstats : store.syncStats (corpusOf after) = { unchanged := 2 } := by decide +kernel
  have hidle : (store.syncStats (corpusOf after)).isNoop = true := by rw [hstats]; rfl
  have hstore : (Index.Handle.inMemory store).store after = .ok store := rfl
  rw [Index.Handle.sync_of_isNoop hstore hidle, hstats]

/-- The color is looked for under the number that it had. -/
theorem resolve_after : resolve store (corpusOf after) after {} requirements =
    .error (.objectNotFound "x" 1) := by
  have hids : Requirements.ids requirements = [5, 9] := by
    have hnamed : requirements.flatMap Requirement.ids = [9, 5] := by decide
    rw [Requirements.ids, hnamed]
    simp [List.eraseDups_cons, List.mergeSort]
  have hnames : Resolution.bundlesWith store [5, 9] = .ok ["m"] := by
    rw [Resolution.bundlesWith_eq synced.1]
    decide +kernel
  rw [← failure?_eq_some_iff, resolve, hids, hnames]
  decide +kernel

end Stale

open Stale in
theorem finds_objects_before :
    Index.SyncHistory ((corpusOf before).tables before) (.inMemory store) before
      (corpusOf before) ∧
    ∃ opened, (corpusOf before).openBundle before "x" = .ok opened ∧
      ∃ e ∈ opened.entries, (corpusOf before).decodeOne before "x" 1 .texture = opened.decode e ∧
        Index.recordOf? "x" e = some ⟨1, "hero", .texture, 0, 0, "x", ""⟩ := by
  obtain ⟨s, hs, hrecords, -⟩ := history.finds_objects fun b hb entries h =>
    (Except.ok.inj ((tablesOn_before b hb).symm.trans h)).symm
  obtain rfl : store = s := Except.ok.inj hs
  obtain ⟨-, -, hselected⟩ := hrecords _ (.findByName findByName?_store)
  obtain ⟨-, -, -, hsingle⟩ := evaluated_before
  obtain ⟨opened, hopened, hone⟩ := exists_eq_ok_of_any hsingle
  obtain ⟨e, he, -, hdecode, hrecord⟩ := hselected opened hopened
  exact ⟨history, opened, hopened, e, he, hdecode, hrecord (beq_iff_eq.mp hone)⟩

open Stale in
/-- **A record may point at an object that is gone**: where a file was replaced by one of the same
size, a sync with the new corpus succeeds and leaves the record. -/
theorem finds_objects_not_after :
    (∃ stats, (Index.Handle.inMemory {}).sync before (corpusOf before) =
        (.ok stats, .inMemory store, before)) ∧
      (Index.Handle.inMemory store).sync after (corpusOf after) =
        (.ok { unchanged := 2 }, .inMemory store, after) ∧
      (∃ r, store.Returns r ∧
        (corpusOf after).decodeOne after r.bundle r.pathId r.kind =
          .error (.objectNotFound "x" 1)) ∧
      resolve store (corpusOf after) after {} requirements = .error (.objectNotFound "x" 1) := by
  obtain ⟨-, stats, hsync⟩ := synced
  exact ⟨⟨stats, Index.Handle.sync_inMemory hsync⟩, sync_after,
    ⟨_, .findByName findByName?_store, by decide +kernel⟩, resolve_after⟩

end CharacterArt
