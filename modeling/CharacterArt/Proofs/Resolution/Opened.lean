import CharacterArt.Proofs.Bundle.Corpus
import CharacterArt.Proofs.Index.Selection
import CharacterArt.Proofs.Resolution.Copies
import CharacterArt.Proofs.Traversal

/-!
# The bundles that a resolution opens

An index in sync with its corpus names the bundles with required images, and no others.  When their
selected payloads can be decoded, the assets are the copies that the tables of the corpus list, in
the order of the names of their bundles.

## Main Definitions

* `Corpus.table`, `Corpus.copies` — the table of a bundle, and the copies of an object in a corpus
* `Index.Store.InSync`, `Index.Store.fresh` — an index in sync with a corpus on a disk, and one that
  was synced once
* `Resolution.isRequired`, `Resolution.opens` — required images, and the bundles that hold them
* `Resolution.Decodable` — every selected payload can be decoded

## Main Results

* `Index.Store.exists_inSync`, `Index.Store.inSync_fresh` — an index that is in sync
* `Resolution.bundlesWith_eq` — the bundles that are opened
* `Resolution.exists_assets` — what is decoded of them
-/

namespace CharacterArt

/-! ### Copies in a corpus -/

/-- Whether an entry describes an image object of a number and a kind. -/
def Bundle.Entry.describes (id : PathId) (kind : AssetKind) (e : Bundle.Entry) : Bool :=
  e.pathId == id && e.kind? == some kind

namespace Corpus

/-- The table of a bundle, without entries if it cannot be read. -/
def table (d : Files) (b : BundleFile) : List Bundle.Entry :=
  match Index.tablesOn d b with
  | .ok entries => entries
  | .error _ => []

/-- The tables of a corpus, whatever the sizes of its bundles. -/
def tables (c : Corpus) (d : Files) : Index.Tables := fun name _ =>
  match c.get? name with
  | some b => table d b
  | none => []

/-- The name of a bundle, once for each copy of an object in it. -/
def copiesIn (d : Files) (id : PathId) (kind : AssetKind) (b : BundleFile) : List String :=
  ((table d b).filter (Bundle.Entry.describes id kind)).map fun _ => b.name

/-- The bundles of the copies of an object, one for each copy, in the order of their names. -/
def copies (c : Corpus) (d : Files) (id : PathId) (kind : AssetKind) : List String :=
  c.bundles.flatMap (copiesIn d id kind)

end Corpus

/-! ### Bundles that are read -/

theorem Bundle.name_of_ofBytes {path : String} {bytes : Text.Bytes} {b : Bundle}
    (h : ofBytes path bytes = .ok b) : b.name = (Path.stem path).getD "" := by
  obtain ⟨entries, -, rfl⟩ := map_eq_ok_iff.mp h
  rfl

theorem Corpus.name_of_readBundle {d : Files} {b : BundleFile} {opened : Bundle}
    (h : readBundle d b = .ok opened) : opened.name = (Path.stem b.path).getD "" := by
  obtain ⟨bytes, -, hopened⟩ := bind_eq_ok_iff.mp h
  exact Bundle.name_of_ofBytes hopened

/-- The asset of an entry is what the entry describes, and it knows its bundle. -/
theorem Bundle.isCopyOf_of_decode {b : Bundle} {e : Entry} {a : Asset} (h : b.decode e = .ok a)
    (id : PathId) (kind : AssetKind) :
    a.isCopyOf id kind = e.describes id kind ∧ a.bundle = b.name := by
  unfold decode at h
  split at h
  · cases h
  · next found hfound =>
      obtain ⟨picture, -, rfl⟩ := map_eq_ok_iff.mp h
      refine ⟨?_, rfl⟩
      rw [Asset.isCopyOf, Entry.describes, hfound]
      rfl

/-- The copies among decoded assets are those that the entries describe. -/
theorem holders_of_decode {b : Bundle} {es : List Bundle.Entry} {assets : List Asset}
    (h : es.mapM b.decode = .ok assets) (id : PathId) (kind : AssetKind) :
    holders assets id kind =
      (es.filter (Bundle.Entry.describes id kind)).map fun _ => b.name := by
  rw [mapM_eq_ok_iff] at h
  induction es generalizing assets with
  | nil =>
      rw [List.map_eq_nil_iff.mp h.symm]
      rfl
  | cons e rest ih =>
      cases assets with
      | nil => simp at h
      | cons a others =>
          rw [List.map_cons, List.map_cons, List.cons.injEq] at h
          obtain ⟨hcopy, hbundle⟩ := Bundle.isCopyOf_of_decode h.1 id kind
          have hothers := ih h.2
          unfold holders at hothers ⊢
          rw [List.filter_cons, List.filter_cons, hcopy]
          split
          · rw [List.map_cons, List.map_cons, hothers, hbundle]
          · exact hothers

namespace Index.Store

/-- An index in sync with a corpus: the corpus is that of a directory, the index is in step with it,
and the files still hold the tables that are indexed. -/
structure InSync (s : Store) (c : Corpus) (d : Files) : Prop where
  scanned : ∃ past root, Corpus.scan past root = .ok c
  exists_tables : ∃ tables, s.InStep tables c ∧
    ∀ b ∈ c.bundles, tablesOn d b = .ok (tables b.name b.size)

variable {s : Store} {c : Corpus} {d : Files} {b : BundleFile}

theorem InSync.named (h : s.InSync c d) : c.Named := by
  obtain ⟨past, root, hscan⟩ := h.scanned
  exact Corpus.named_of_scan hscan

/-- A bundle of a corpus can be opened by its name, and it goes by that name itself. -/
theorem InSync.exists_openBundle (h : s.InSync c d) (hb : b ∈ c.bundles) :
    ∃ opened, c.openBundle d b.name = .ok opened ∧ opened.entries = Corpus.table d b ∧
      opened.name = b.name := by
  obtain ⟨past, root, hscan⟩ := h.scanned
  obtain ⟨tables, -, hread⟩ := h.exists_tables
  have hget := (Corpus.mem_bundles h.named).mp hb
  obtain ⟨opened, hopened, -⟩ := map_eq_ok_iff.mp (hread b hb)
  refine ⟨opened, ?_, ?_, ?_⟩
  · rw [Corpus.openBundle, hget]
    exact hopened
  · rw [Corpus.table, tablesOn, hopened]
    rfl
  · rw [Corpus.name_of_readBundle hopened, Corpus.stem_of_scan hscan hget]
    rfl

/-- **A new index can be brought in sync with a corpus whose tables can be read.** -/
theorem exists_inSync {tables : Tables} {past : Files} {root : String}
    (hscan : Corpus.scan past root = .ok c)
    (hread : ∀ b ∈ c.bundles, tablesOn d b = .ok (tables b.name b.size)) :
    ∃ s stats, sync (tablesOn d) {} c = .ok (s, stats) ∧ s.InSync c d := by
  have hc := Corpus.named_of_scan hscan
  have hnew := (inStep_new tables root).faithful
  obtain ⟨s, stats, hsync⟩ := exists_sync (c := c) hnew.standard fun b hb =>
    hread b (List.mem_of_mem_filter hb)
  refine ⟨s, stats, hsync, ⟨past, root, hscan⟩, tables, ?_, hread⟩
  refine sync_inStep hnew hc ?_ hsync
  intro b hb entries h
  exact Except.ok.inj (h.symm.trans (hread b hb))

/-- A new index after one sync with a corpus, or without content if that fails. -/
def fresh (c : Corpus) (d : Files) : Store :=
  match sync (tablesOn d) {} c with
  | .ok (s, _) => s
  | .error _ => {}

/-- **A new index that is synced once is in sync** if the tables of the corpus can be read. -/
theorem inSync_fresh {past : Files} {root : String} (hscan : Corpus.scan past root = .ok c)
    (hok : ∀ b ∈ c.bundles, (tablesOn d b).isOk = true) :
    (fresh c d).InSync c d ∧ ∃ stats, sync (tablesOn d) {} c = .ok (fresh c d, stats) := by
  have hread : ∀ b ∈ c.bundles, tablesOn d b = .ok (c.tables d b.name b.size) := by
    intro b hb
    have hok := hok b hb
    rw [Corpus.tables, (Corpus.mem_bundles (Corpus.named_of_scan hscan)).mp hb]
    show tablesOn d b = .ok (Corpus.table d b)
    rw [Corpus.table]
    cases htable : tablesOn d b with
    | ok entries => rfl
    | error e =>
        rw [htable] at hok
        cases hok
  obtain ⟨s, stats, hsync, h⟩ := exists_inSync hscan hread
  have hfresh : fresh c d = s := by
    rw [fresh, hsync]
  rw [hfresh]
  exact ⟨h, stats, hsync⟩

/-- **A query finds the images of the tables of the corpus.** -/
theorem InSync.exists_lookup (h : s.InSync c d) (ids : List PathId) (kind : AssetKind) :
    ∃ rs, s.lookup ids kind = .ok rs ∧
      ∀ r, r ∈ rs ↔ (∃ b ∈ c.bundles, ∃ e ∈ Corpus.table d b, recordOf? b.name e = some r) ∧
        r.kind = kind ∧ r.pathId ∈ ids := by
  obtain ⟨tables, hs, hread⟩ := h.exists_tables
  obtain ⟨rs, hrs, hmem⟩ := hs.exists_lookup h.named ids kind
  refine ⟨rs, hrs, ?_⟩
  intro r
  have htable : ∀ b ∈ c.bundles, Corpus.table d b = tables b.name b.size := by
    intro b hb
    rw [Corpus.table, hread b hb]
  rw [hmem, Tables.records, List.mem_flatMap]
  refine and_congr_left fun _ => exists_congr fun b => and_congr_right fun hb => ?_
  rw [htable b hb, List.mem_filterMap]

end Index.Store

namespace Resolution

variable {s : Index.Store} {c : Corpus} {d : Files} {b : BundleFile} {ids : List PathId}

/-- Whether an entry describes a required image. -/
def isRequired (ids : List PathId) (e : Bundle.Entry) : Bool :=
  e.kind?.isSome && ids.contains e.pathId

/-- Whether a bundle is opened: it holds a required image. -/
def opens (d : Files) (ids : List PathId) (b : BundleFile) : Bool :=
  (Corpus.table d b).any (isRequired ids)

/-- Every selected payload can be decoded: those of the required images and of the masks in the
bundles that are opened. -/
def Decodable (c : Corpus) (d : Files) (ids : List PathId) : Prop :=
  ∀ b ∈ c.bundles, opens d ids b = true → ∀ opened, c.openBundle d b.name = .ok opened →
    ∀ e ∈ opened.entries, e.kind?.isSome = true → isWanted ids e = true →
      ∃ a, opened.decode e = .ok a

/-- Selected payloads can be decoded if whole selections can. -/
theorem decodable_of_decodeWhere (h : ∀ b ∈ c.bundles, opens d ids b = true →
    (c.decodeWhere d b.name (isWanted ids)).isOk = true) : Decodable c d ids := by
  intro b hb hopens opened hopened e he hkind hwanted
  have hok := h b hb hopens
  cases hassets : c.decodeWhere d b.name (isWanted ids) with
  | error e =>
      rw [hassets] at hok
      cases hok
  | ok assets =>
      obtain ⟨found, hfound, hmapM⟩ := bind_eq_ok_iff.mp hassets
      obtain rfl : found = opened := Except.ok.inj (hfound.symm.trans hopened)
      have hdecoded : found.decode e ∈ assets.map Except.ok := by
        rw [← mapM_eq_ok_iff.mp hmapM]
        refine List.mem_map_of_mem (List.mem_filter.mpr ⟨he, ?_⟩)
        rw [hkind, hwanted]
        rfl
      obtain ⟨a, -, ha⟩ := List.mem_map.mp hdecoded
      exact ⟨a, ha.symm⟩

/-! ### The bundles that are opened -/

theorem nodup_eraseDups {α : Type} [BEq α] [LawfulBEq α] (xs : List α) : xs.eraseDups.Nodup := by
  match xs with
  | [] => simp
  | x :: rest =>
      rw [List.eraseDups_cons, List.nodup_cons]
      refine ⟨?_, nodup_eraseDups (rest.filter fun y => !y == x)⟩
      rw [List.mem_eraseDups]
      simp
termination_by xs.length
decreasing_by
  exact Nat.lt_succ_of_le (List.length_filter_le _ rest)

/-- Sorting texts without repetitions gives the list of them that is in order. -/
theorem mergeSort_eraseDups {xs ys : List String} (hmem : ∀ x, x ∈ xs ↔ x ∈ ys)
    (hys : ys.Pairwise (· < ·)) :
    (xs.eraseDups.mergeSort fun a b => decide (a ≤ b)) = ys := by
  have hsorted : (xs.eraseDups.mergeSort fun a b => decide (a ≤ b)).Pairwise (· ≤ ·) := by
    refine (List.pairwise_mergeSort ?_ ?_ xs.eraseDups).imp of_decide_eq_true
    · intro a b c hab hbc
      exact decide_eq_true (String.le_trans (of_decide_eq_true hab) (of_decide_eq_true hbc))
    · intro a b
      simpa using String.le_total a b
  have hordered : ys.Pairwise (· ≤ ·) := by
    refine hys.imp ?_
    intro a b hlt
    exact String.not_lt.mp (String.lt_asymm hlt)
  have hnodup : ys.Nodup := by
    refine hys.imp ?_
    rintro a b hlt rfl
    exact String.lt_irrefl a hlt
  have hperm : (xs.eraseDups.mergeSort fun a b => decide (a ≤ b)).Perm ys := by
    refine (List.mergeSort_perm xs.eraseDups _).trans ?_
    rw [List.perm_ext_iff_of_nodup (nodup_eraseDups xs) hnodup]
    intro x
    rw [List.mem_eraseDups, hmem]
  exact hperm.eq_of_pairwise (fun a b _ _ => String.le_antisymm) hsorted hordered

/-- **The bundles that a resolution opens are those of the corpus with a required image, in the
order of their names.** -/
theorem bundlesWith_eq (h : s.InSync c d) (ids : List PathId) :
    bundlesWith s ids = .ok ((c.bundles.filter (opens d ids)).map BundleFile.name) := by
  obtain ⟨textures, htextures, hmemTextures⟩ := h.exists_lookup ids .texture
  obtain ⟨sprites, hsprites, hmemSprites⟩ := h.exists_lookup ids .sprite
  have hordered : ((c.bundles.filter (opens d ids)).map BundleFile.name).Pairwise (· < ·) :=
    (Corpus.pairwise_names h.named).sublist (List.filter_sublist.map BundleFile.name)
  rw [bundlesWith, htextures, hsprites]
  refine congrArg Except.ok (mergeSort_eraseDups ?_ hordered)
  intro name
  -- Both queries together find the images of either kind.
  have hmem : ∀ r, r ∈ textures ++ sprites ↔
      (∃ b ∈ c.bundles, ∃ e ∈ Corpus.table d b, Index.recordOf? b.name e = some r) ∧
        r.pathId ∈ ids := by
    intro r
    rw [List.mem_append, hmemTextures, hmemSprites]
    cases hkind : r.kind <;> simp
  rw [List.mem_map, List.mem_map]
  constructor
  · rintro ⟨r, hr, rfl⟩
    obtain ⟨⟨b, hb, e, he, hrecord⟩, hid⟩ := (hmem r).mp hr
    obtain ⟨kind, hkind, rfl⟩ := Option.map_eq_some_iff.mp hrecord
    refine ⟨b, List.mem_filter.mpr ⟨hb, List.any_eq_true.mpr ⟨e, he, ?_⟩⟩, rfl⟩
    rw [isRequired, hkind, Bool.and_eq_true, List.contains_iff_mem]
    exact ⟨rfl, hid⟩
  · rintro ⟨b, hb, rfl⟩
    obtain ⟨hb, hopens⟩ := List.mem_filter.mp hb
    obtain ⟨e, he, hrequired⟩ := List.any_eq_true.mp hopens
    rw [isRequired, Bool.and_eq_true, List.contains_iff_mem] at hrequired
    obtain ⟨kind, hkind⟩ := Option.isSome_iff_exists.mp hrequired.1
    have hrecord : Index.recordOf? b.name e = some
        ⟨e.pathId, e.name, kind, e.width, e.height, b.name, e.container⟩ := by
      rw [Index.recordOf?, hkind]
      rfl
    exact ⟨_, (hmem _).mpr ⟨⟨b, hb, e, he, hrecord⟩, hrequired.2⟩, rfl⟩

/-! ### What is decoded -/

/-- Of an opened bundle every copy of a required object is decoded. -/
theorem exists_decodeWhere (h : s.InSync c d) (hdecodable : Decodable c d ids)
    (hb : b ∈ c.bundles) (hopens : opens d ids b = true) :
    ∃ assets, c.decodeWhere d b.name (isWanted ids) = .ok assets ∧
      ∀ id ∈ ids, ∀ kind, holders assets id kind = Corpus.copiesIn d id kind b := by
  obtain ⟨opened, hopened, hentries, hname⟩ := h.exists_openBundle hb
  obtain ⟨assets, hassets⟩ : ∃ assets,
      (opened.entries.filter fun e => e.kind?.isSome && isWanted ids e).mapM opened.decode =
        .ok assets := by
    apply exists_mapM_eq_ok
    intro e he
    obtain ⟨he, hselected⟩ := List.mem_filter.mp he
    rw [Bool.and_eq_true] at hselected
    exact hdecodable b hb hopens opened hopened e he hselected.1 hselected.2
  refine ⟨assets, ?_, ?_⟩
  · rw [Corpus.decodeWhere, hopened]
    exact hassets
  · intro id hid kind
    rw [holders_of_decode hassets, Corpus.copiesIn, hname, List.filter_filter, hentries]
    -- The copies of a required object are among the selected entries.
    congr 2
    funext e
    rw [Bundle.Entry.describes, isWanted, Bool.eq_iff_iff]
    simp only [Bool.and_eq_true, Bool.or_eq_true, beq_iff_eq, List.contains_iff_mem]
    constructor
    · exact fun hboth => hboth.1
    · rintro ⟨rfl, hkind⟩
      exact ⟨⟨rfl, hkind⟩, by simp [hkind], .inl hid⟩

/-- A bundle that is not opened holds no copy of a required object. -/
theorem copiesIn_eq_nil (hopens : ¬ opens d ids b = true) {id : PathId} (hid : id ∈ ids)
    (kind : AssetKind) : Corpus.copiesIn d id kind b = [] := by
  rw [Corpus.copiesIn, List.map_eq_nil_iff, List.filter_eq_nil_iff]
  intro e he hdescribes
  apply hopens
  rw [opens, List.any_eq_true]
  rw [Bundle.Entry.describes, Bool.and_eq_true, beq_iff_eq, beq_iff_eq] at hdescribes
  refine ⟨e, he, ?_⟩
  rw [isRequired, hdescribes.1, hdescribes.2, Bool.and_eq_true, List.contains_iff_mem]
  exact ⟨rfl, hid⟩

/-- **If every selected payload can be decoded, the assets hold every copy of a required object, in
the order of the names of the bundles.** -/
theorem exists_assets (h : s.InSync c d) (hdecodable : Decodable c d ids) :
    ∃ parts, ((c.bundles.filter (opens d ids)).map BundleFile.name).mapM
        (fun name => c.decodeWhere d name (isWanted ids)) = .ok parts ∧
      ∀ id ∈ ids, ∀ kind, holders parts.flatten id kind = c.copies d id kind := by
  -- by induction on the bundles, of which each is one of the corpus
  suffices hall : ∀ bs : List BundleFile, (∀ b ∈ bs, b ∈ c.bundles) →
      ∃ parts, ((bs.filter (opens d ids)).map BundleFile.name).mapM
          (fun name => c.decodeWhere d name (isWanted ids)) = .ok parts ∧
        ∀ id ∈ ids, ∀ kind, holders parts.flatten id kind =
          bs.flatMap (Corpus.copiesIn d id kind) from
    hall c.bundles fun b hb => hb
  intro bs hbs
  induction bs with
  | nil => exact ⟨[], rfl, fun id _ kind => rfl⟩
  | cons b rest ih =>
      obtain ⟨parts, hparts, hholders⟩ := ih fun b' hb' => hbs b' (List.mem_cons_of_mem b hb')
      by_cases hopens : opens d ids b = true
      · obtain ⟨assets, hassets, hcopies⟩ :=
          exists_decodeWhere h hdecodable (hbs b List.mem_cons_self) hopens
        refine ⟨assets :: parts, ?_, ?_⟩
        · rw [mapM_eq_ok_iff] at hparts ⊢
          rw [List.filter_cons_of_pos hopens, List.map_cons, List.map_cons, hassets, hparts,
            List.map_cons]
        · intro id hid kind
          rw [List.flatten_cons, holders_append, hcopies id hid, hholders id hid,
            List.flatMap_cons]
      · refine ⟨parts, ?_, ?_⟩
        · rw [List.filter_cons_of_neg hopens]
          exact hparts
        · intro id hid kind
          rw [hholders id hid, List.flatMap_cons, copiesIn_eq_nil hopens hid, List.nil_append]

end Resolution

end CharacterArt
