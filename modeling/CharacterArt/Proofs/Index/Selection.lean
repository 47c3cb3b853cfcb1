import CharacterArt.Proofs.Index.Content
import CharacterArt.Proofs.Index.Queries

/-!
# What an index in step finds

The rows of a store in step with a corpus hold the records of its tables and nothing else, and every
record can be read off its row.  So a query for numbers finds exactly the records of the corpus with
these numbers, in however many chunks it asks for them.

## Main Definitions

* `Row.Holds` — a row is that of a record
* `Tables.records` — the records of the tables of a corpus

## Main Results

* `Row.record?_ofRecord` — a record can be read off its row
* `Store.InStep.holds_iff` — the rows of a store in step are those of the records of its corpus
* `Store.InStep.exists_lookup` — what a query for numbers finds
-/

namespace CharacterArt.Index

/-! ### Rows of records -/

theorem idOf?_toInt (id : PathId) : idOf? (.integer id.toInt) = some id := by
  have hshort : Value.isShort id.toInt = true := by
    rw [Value.isShort, Bool.and_eq_true, decide_eq_true_iff, decide_eq_true_iff]
    exact ⟨id.minValue_le_toInt, id.toInt_le⟩
  rw [idOf?, if_pos hshort, Int64.ofInt_toInt]

theorem sizeOf?_toNat (n : UInt32) : sizeOf? (.integer n.toNat) = some n := by
  have hsize : (0 : Int) ≤ n.toNat ∧ (n.toNat : Int) < UInt32.size :=
    ⟨Int.natCast_nonneg _, Int.ofNat_lt.mpr n.toNat_lt_size⟩
  rw [sizeOf?, if_pos hsize]
  simp

theorem kindOf?_tag (kind : AssetKind) : kindOf? (.integer kind.tag.toNat) = some kind := by
  cases kind <;> rfl

namespace Row

/-- **A record can be read off its row.** -/
theorem record?_ofRecord (r : Record) : (ofRecord r).record? = some r := by
  simp only [record?, ofRecord, idOf?_toInt, sizeOf?_toNat, kindOf?_tag, textOf?]
  rfl

/-- Whether a row is that of a record. -/
def Holds (row : Row) (r : Record) : Prop :=
  row.unnumbered = ofRecord r

variable {row : Row} {r : Record}

theorem Holds.record? (h : row.Holds r) : row.record? = some r := by
  have hrow : row.record? = row.unnumbered.record? := rfl
  rw [hrow, h, record?_ofRecord]

/-- A row is that of one record at most, as the record can be read off it. -/
theorem Holds.unique {r' : Record} (h : row.Holds r) (h' : row.Holds r') : r = r' :=
  Option.some.inj (h.record?.symm.trans h'.record?)

theorem Holds.kind (h : row.Holds r) : row.kind = .integer r.kind.tag.toNat := by
  have hrow : row.kind = row.unnumbered.kind := rfl
  rw [hrow, h]
  rfl

theorem Holds.pathId (h : row.Holds r) : row.pathId = .integer r.pathId.toInt := by
  have hrow : row.pathId = row.unnumbered.pathId := rfl
  rw [hrow, h]
  rfl

end Row

/-- Rows of records are read one by one. -/
theorem exists_records {rows : List Row} (h : ∀ row ∈ rows, ∃ r, row.Holds r) :
    ∃ rs, records rows = .ok rs ∧ ∀ r, r ∈ rs ↔ ∃ row ∈ rows, row.Holds r := by
  -- no row is skipped, since each is that of a record
  have hread : rows.map Row.record? = (rows.filterMap Row.record?).map some := by
    induction rows with
    | nil => rfl
    | cons row rest ih =>
        obtain ⟨r, hr⟩ := h row List.mem_cons_self
        rw [List.map_cons, List.filterMap_cons_some hr.record?, List.map_cons, hr.record?,
          ih fun other hother => h other (List.mem_cons_of_mem row hother)]
  refine ⟨rows.filterMap Row.record?, ?_, ?_⟩
  · rw [records, mapM_eq_some_iff.mpr hread]
  · intro r
    rw [List.mem_filterMap]
    constructor
    · rintro ⟨row, hrow, hr⟩
      obtain ⟨r', hr'⟩ := h row hrow
      obtain rfl : r' = r := Option.some.inj (hr'.record?.symm.trans hr)
      exact ⟨row, hrow, hr'⟩
    · rintro ⟨row, hrow, hr⟩
      exact ⟨row, hrow, hr.record?⟩

/-- Columns of numbers tell whole numbers apart. -/
theorem Affinity.isEqual_integer (c : Collation) (i j : Int) :
    Affinity.numeric.isEqual c (.integer i) (.integer j) = (i == j) := by
  show (Ord.compare i j == .eq) = (i == j)
  rw [Bool.eq_iff_iff]
  simp

/-! ### The records of a corpus -/

/-- The records of the tables of a corpus. -/
def Tables.records (tables : Tables) (c : Corpus) : List Record :=
  c.bundles.flatMap fun b => (tables b.name b.size).filterMap (recordOf? b.name)

/-! ### Chunks -/

/-- Chunks are cut from a list and leave nothing out. -/
theorem flatten_chunks {α : Type} {n : Nat} (hn : n ≠ 0) (xs : List α) :
    (chunks n xs).flatten = xs := by
  fun_induction chunks n xs with
  | case1 xs h =>
      rcases h with h | rfl
      · exact absurd h hn
      · rfl
  | case2 xs h hlt ih => rw [List.flatten_cons, ih, List.take_append_drop]

namespace Store

variable {tables : Tables} {s : Store} {c : Corpus} {row : Row} {r : Record}

/-- Every row of a store in step with a corpus is that of a record of the corpus. -/
theorem InStep.exists_record (hs : s.InStep tables c) (hc : c.Named) (hrow : row ∈ s.images) :
    ∃ r ∈ tables.records c, row.Holds r := by
  obtain ⟨b, hb, hbundle⟩ := hs.exists_bundle hc hrow
  have hcontent := unnumbered_mem_content hrow hbundle
  rw [hs.content_eq hc hb] at hcontent
  obtain ⟨r, hr, heq⟩ := List.mem_map.mp hcontent
  exact ⟨r, List.mem_flatMap.mpr ⟨b, hb, hr⟩, heq.symm⟩

/-- **The rows of a store in step with a corpus are those of the records of the corpus.** -/
theorem InStep.holds_iff (hs : s.InStep tables c) (hc : c.Named) :
    (∃ row ∈ s.images, row.Holds r) ↔ r ∈ tables.records c := by
  constructor
  · rintro ⟨row, hrow, hr⟩
    obtain ⟨r', hr', hholds⟩ := hs.exists_record hc hrow
    rwa [hr.unique hholds]
  · intro hr
    obtain ⟨b, hb, hr⟩ := List.mem_flatMap.mp hr
    have hcontent : Row.ofRecord r ∈ s.content b.name := by
      rw [hs.content_eq hc hb]
      exact List.mem_map_of_mem hr
    obtain ⟨row, hrow, hholds⟩ := List.mem_map.mp hcontent
    exact ⟨row, Array.mem_toList_iff.mp (List.mem_of_mem_filter hrow), hholds⟩

/-- A query selects the rows of records of the kind and the numbers that it asks for. -/
theorem mem_select (hs : s.table = .standard) (hr : row.Holds r) {kind : AssetKind}
    {ids : List PathId} :
    row ∈ s.select kind ids ↔ row ∈ s.images ∧ r.kind = kind ∧ r.pathId ∈ ids := by
  obtain ⟨hidAffinity, -, hkindAffinity, -⟩ := Table.evaluated_standard.2.1
  rw [← hs] at hidAffinity hkindAffinity
  have hkind : s.isEqual .kind (.integer kind.tag.toNat) row = true ↔ r.kind = kind := by
    show Affinity.isEqual _ _ row.kind _ = true ↔ _
    rw [hkindAffinity, hr.kind, Affinity.isEqual_integer]
    cases r.kind <;> cases kind <;> decide
  have hid : ∀ id : PathId, (Affinity.numeric.isEqual (s.table.collationOf .pathId) row.pathId
      (.integer id.toInt)) = (r.pathId == id) := by
    intro id
    rw [hr.pathId, Affinity.isEqual_integer, Bool.eq_iff_iff, beq_iff_eq, beq_iff_eq,
      Int64.toInt_inj]
  simp only [select, rowsOfKind, List.mem_mergeSort, List.mem_filter, hidAffinity, hid, hkind,
    List.any_beq, List.contains_iff_mem, Array.mem_toList_iff, and_assoc]

/-- **A query of a store in step with a corpus succeeds, and it finds the records of the corpus of
the kind and the numbers that it asks for.** -/
theorem InStep.exists_lookup (hs : s.InStep tables c) (hc : c.Named) (ids : List PathId)
    (kind : AssetKind) :
    ∃ rs, s.lookup ids kind = .ok rs ∧
      ∀ r, r ∈ rs ↔ r ∈ tables.records c ∧ r.kind = kind ∧ r.pathId ∈ ids := by
  have himages : ∀ {row}, row ∈ (chunks chunkSize ids).flatMap (s.select kind) →
      row ∈ s.images := by
    intro row hrow
    obtain ⟨chunk, -, hselect⟩ := List.mem_flatMap.mp hrow
    exact mem_images_of_mem_rowsOfKind (List.mem_of_mem_filter (List.mem_mergeSort.mp hselect))
  obtain ⟨rs, hrs, hmem⟩ := exists_records fun row hrow =>
    (hs.exists_record hc (himages hrow)).imp fun r => And.right
  refine ⟨rs, hrs, ?_⟩
  intro r
  -- A number is asked for exactly if it stands in one of the chunks.
  have hchunk : r.pathId ∈ ids ↔ ∃ chunk ∈ chunks chunkSize ids, r.pathId ∈ chunk := by
    rw [← List.mem_flatten, flatten_chunks (by decide)]
  rw [hmem, ← hs.holds_iff hc, hchunk]
  constructor
  · rintro ⟨row, hrow, hr⟩
    obtain ⟨chunk, hin, hselect⟩ := List.mem_flatMap.mp hrow
    obtain ⟨himage, hkind, hid⟩ := (mem_select hs.faithful.standard hr).mp hselect
    exact ⟨⟨row, himage, hr⟩, hkind, chunk, hin, hid⟩
  · rintro ⟨⟨row, himage, hr⟩, hkind, chunk, hin, hid⟩
    refine ⟨row, List.mem_flatMap.mpr ⟨chunk, hin, ?_⟩, hr⟩
    exact (mem_select hs.faithful.standard hr).mpr ⟨himage, hkind, hid⟩

end Store

end CharacterArt.Index
