import CharacterArt.Proofs.Alpha.RuleChain
import CharacterArt.Proofs.Index.Chunks
import CharacterArt.Proofs.Index.MaskPattern

/-!
# The catalog of all masks

The catalog of a run is made of what the query for masks finds in the index.  It holds the textures of
the index with the name of a mask, each as often as rows hold it, under their names in lowercase.  The
query also finds textures that are called like the marker itself, and the catalog leaves these out.

## Main Definitions

* `MaskCatalog.entries` — all records of a catalog
* `Store.maskRecords` — the textures of an index with the name of a mask

## Main Results

* `MaskCatalog.entries_ofRecords` — a catalog holds the records of masks that it was made of
* `Store.catalog_of_maskTextures` — the catalog of what the query for masks finds
-/

namespace CharacterArt

open Text (lowercase)

/-! ### All records of a catalog -/

namespace Alpha.MaskCatalog

variable {catalog : MaskCatalog} {records : List Record}

/-- All records of a catalog. -/
def entries (catalog : MaskCatalog) : List Record :=
  catalog.masks.toList.flatMap Prod.snd

theorem size_eq (catalog : MaskCatalog) : catalog.size = catalog.entries.length := by
  rw [size, Std.TreeMap.foldl_eq_foldl_toList, entries, List.length_flatMap, List.sum_eq_foldl,
    List.foldl_map]

/-- The records of a catalog that are not kept under a key. -/
def entriesBeside (catalog : MaskCatalog) (key : String) : List Record :=
  (catalog.masks.toList.filter fun entry => ¬ (key == entry.1) = true).flatMap Prod.snd

/-- What is kept under a key, and what is not. -/
theorem entries_perm (catalog : MaskCatalog) (key : String) :
    catalog.entries.Perm ((catalog.masks[key]?).getD [] ++ catalog.entriesBeside key) := by
  cases hkey : catalog.masks[key]? with
  | none =>
      have hother : ∀ entry ∈ catalog.masks.toList, ¬ (key == entry.1) = true := by
        rintro ⟨k, candidates⟩ hentry hk
        obtain rfl : key = k := beq_iff_eq.mp hk
        rw [Std.TreeMap.mem_toList_iff_getElem?_eq_some, hkey] at hentry
        cases hentry
      rw [entriesBeside, List.filter_eq_self.mpr fun entry hentry => decide_eq_true (hother entry hentry)]
      rfl
  | some candidates =>
      -- to put in what is there already changes nothing
      have hsame : (catalog.masks.insert key candidates).Equiv catalog.masks := by
        refine .of_forall_constGet?_eq fun k => ?_
        rw [Std.TreeMap.getElem?_insert]
        split
        · next hk => rw [← hkey, Std.compare_eq_iff_eq.mp hk]
        · rfl
      rw [entries, ← hsame.toList_eq]
      exact Std.TreeMap.toList_insert_perm.flatMap_right Prod.snd

/-- **One more record.** -/
theorem entries_insert (catalog : MaskCatalog) (r : Record) :
    (catalog.insert r).entries.Perm
      (catalog.entries ++ if isMaskName r.name then [r] else []) := by
  unfold insert
  split
  · refine (Std.TreeMap.toList_insert_perm.flatMap_right Prod.snd).trans ?_
    refine .trans ?_ ((catalog.entries_perm (lowercase r.name)).append_right [r]).symm
    rw [List.flatMap_cons, List.append_assoc, List.append_assoc]
    exact List.perm_append_comm.append_left _
  · rw [List.append_nil]

/-- **A catalog holds the records of masks that it was made of.** -/
theorem entries_ofRecords (records : List Record) :
    (ofRecords records).entries.Perm (records.filter fun r => isMaskName r.name) := by
  have hfold : ∀ catalog : MaskCatalog, (records.foldl insert catalog).entries.Perm
      (catalog.entries ++ records.filter fun r => isMaskName r.name) := by
    induction records with
    | nil => simp
    | cons r records ih =>
        intro catalog
        rw [List.foldl_cons, List.filter_cons]
        refine (ih _).trans (((entries_insert catalog r).append_right _).trans (.of_eq ?_))
        rw [List.append_assoc]
        split <;> rfl
  exact (hfold {}).trans (.of_eq rfl)

end Alpha.MaskCatalog

/-! ### The query for masks -/

namespace Index.Store

open Alpha (marker isMaskName MaskCatalog)

variable {s : Store}

/-- The textures of an index that have the name of a mask. -/
def maskRecords (s : Store) : List Record :=
  s.held.filter fun r => r.kind = .texture ∧ isMaskName r.name = true

/-- What the query for masks finds. -/
theorem perm_of_maskTextures (hs : s.IsKept) {rs : List Record} (h : s.maskTextures = .ok rs) :
    rs.Perm (s.held.filter fun r => r.kind = .texture ∧ matchesMask (.text r.name) = true) := by
  rw [records_eq_ok h]
  refine ((List.mergeSort_perm _ _).filterMap _).trans (.of_eq ?_)
  rw [rowsOfKind, List.filter_filter, held, List.filter_filterMap, List.filterMap_filter]
  refine List.filterMap_congr fun row hrow => ?_
  cases hr : row.record? with
  | none => simp
  | some r =>
      rw [hs.isEqual_kind (Array.mem_toList_iff.mp hrow) hr, Row.name_of_record? hr]
      by_cases hkind : r.kind = .texture <;> simp [Option.filter, hkind]

/-- **The catalog of what the query for masks finds.** -/
theorem catalog_of_maskTextures (hs : s.IsKept)
    (hnul : ∀ r ∈ s.held, '\x00' ∉ r.name.toList) :
    match s.maskTextures with
    | .ok rs =>
      (∀ r, r ∈ rs ↔ r ∈ s.held ∧ r.kind = .texture ∧ FitsMaskPattern r.name) ∧
      (∀ key, (((MaskCatalog.ofRecords rs).masks[key]?).getD []).Perm
        (s.maskRecords.filter fun r => lowercase r.name == key)) ∧
      (MaskCatalog.ofRecords rs).entries.Perm s.maskRecords ∧
      (MaskCatalog.ofRecords rs).size = s.maskRecords.length ∧
      (rs.filter fun r => !isMaskName r.name).Perm
        (s.held.filter fun r => r.kind = .texture ∧ r.name.toList.map Char.toLower = marker)
    | .error _ =>
      ∃ row ∈ s.images, row.record? = none ∧
        s.isEqual .kind (.integer AssetKind.texture.tag.toNat) row = true ∧
        matchesMask row.name = true := by
  have hpattern : ∀ r ∈ s.held, (matchesMask (.text r.name) = true ↔
      isMaskName r.name = true ∨ r.name.toList.map Char.toLower = marker) :=
    fun r hr => matchesMask_iff (hnul r hr)
  cases hquery : s.maskTextures with
  | ok rs =>
      have hfound := perm_of_maskTextures hs hquery
      have hmasks : (rs.filter fun r => isMaskName r.name).Perm s.maskRecords := by
        refine (hfound.filter _).trans (.of_eq ?_)
        rw [List.filter_filter, maskRecords]
        refine List.filter_congr fun r hr => ?_
        by_cases hmask : isMaskName r.name = true <;> simp [hpattern r hr, hmask]
      have hentries := (MaskCatalog.entries_ofRecords rs).trans hmasks
      refine ⟨fun r => ?_, fun key => ?_, hentries, ?_, ?_⟩
      · rw [hfound.mem_iff, List.mem_filter, decide_eq_true_iff, matchesMask_iff_fits]
      · rw [MaskCatalog.keeps_ofRecords rs key]
        refine .trans (.of_eq ?_) (hmasks.filter _)
        rw [MaskCatalog.under, List.filter_filter]
        exact List.filter_congr fun r _ => Bool.and_comm _ _
      · rw [MaskCatalog.size_eq, hentries.length_eq]
      · refine (hfound.filter _).trans (.of_eq ?_)
        rw [List.filter_filter]
        refine List.filter_congr fun r hr => ?_
        by_cases hbare : r.name.toList.map Char.toLower = marker
        · simp [hpattern r hr, hbare, isMaskName_of_bare hbare]
        · by_cases hmask : isMaskName r.name = true <;> simp [hpattern r hr, hbare, hmask]
  | error e =>
      obtain ⟨row, hrow, hnone⟩ := exists_of_records_eq_error hquery
      rw [List.mem_mergeSort, List.mem_filter, rowsOfKind, List.mem_filter,
        Array.mem_toList_iff] at hrow
      exact ⟨row, hrow.1.1, hnone, hrow.1.2, hrow.2⟩

end Index.Store

/-! ### Names of many kinds

Textures with names of masks, one of them named twice so and one with a letter of two bytes before the
marker; the marker alone, a name that has a letter in the place of the underscore, and a sprite. -/

namespace Index.Mixed

def texture (pathId : PathId) (name : String) : Record :=
  ⟨pathId, name, .texture, 2, 2, "art", ""⟩

def masks : List Record :=
  [texture 1 "hero_Alpha", texture 2 "HERO_ALPHA_alpha", texture 3 "é_ALPHA"]

def others : List Record :=
  [texture 4 "_Alpha", texture 5 "heroXalpha", { texture 6 "foe_alpha" with kind := .sprite }]

def store : Store where
  bundles := Std.TreeMap.ofList [("art", 100)]
  images := ((masks ++ others).map Row.ofRecord).toArray

theorem held_store : store.held = masks ++ others :=
  Store.held_of_records rfl

end Index.Mixed

open Index Mixed in
theorem Index.Store.catalog_of_maskTextures_mixed :
    store.IsKept ∧ (∀ r ∈ store.held, '\x00' ∉ r.name.toList) ∧
      ∃ rs, store.maskTextures = .ok rs ∧ (Alpha.MaskCatalog.ofRecords rs).entries.Perm masks ∧
        (Alpha.MaskCatalog.ofRecords rs).size = 3 ∧
        (rs.filter fun r => !Alpha.isMaskName r.name) = [texture 4 "_Alpha"] := by
  have hkept : store.IsKept := Store.isKept_of_records rfl rfl
  have hnul : ∀ r ∈ store.held, '\x00' ∉ r.name.toList := by
    rw [held_store]
    decide +kernel
  refine ⟨hkept, hnul, ?_⟩
  have hcatalog := Store.catalog_of_maskTextures hkept hnul
  have hmasks : store.maskRecords = masks := by
    rw [Store.maskRecords, held_store]
    decide +kernel
  split at hcatalog
  · next rs hrs =>
      obtain ⟨-, -, hentries, hsize, hdropped⟩ := hcatalog
      rw [hmasks] at hentries hsize
      refine ⟨rs, hrs, hentries, hsize, List.perm_singleton.mp (hdropped.trans (.of_eq ?_))⟩
      rw [held_store]
      decide +kernel
  · obtain ⟨row, hrow, hnone, -⟩ := hcatalog
    rw [store, List.mem_toArray] at hrow
    obtain ⟨r, -, rfl⟩ := List.mem_map.mp hrow
    rw [Row.record?_ofRecord] at hnone
    cases hnone

end CharacterArt
