import CharacterArt.Index.Lookup
import CharacterArt.Proofs.Traversal

/-!
# What queries return

Every query selects rows of the table of images and reads them as records.  `Store.Returns` puts all
queries together, so that what holds of the rows of a store is said once for all of them.

## Main Definitions

* `Store.Returns` — some query of a store returns a record

## Main Results

* `Store.Returns.exists_row` — a record that a query returns is that of a row
-/

namespace CharacterArt.Index

theorem eq_text_of_textOf? {v : Value} {text : String} (h : textOf? v = some text) :
    v = .text text := by
  unfold textOf? at h
  split at h
  · cases h
    rfl
  · cases h

/-- The name of a record is the one that its row holds. -/
theorem Row.name_of_record? {r : Row} {record : Record} (h : r.record? = some record) :
    r.name = .text record.name := by
  simp only [Row.record?, bind, Option.bind_eq_some_iff, pure, Option.some.injEq] at h
  obtain ⟨pathId, -, name, hname, kind, -, width, -, height, -, bundle, -, container, -, rfl⟩ := h
  exact eq_text_of_textOf? hname

/-- The bundle of a record is the one that its row holds. -/
theorem Row.bundle_of_record? {r : Row} {record : Record} (h : r.record? = some record) :
    r.bundle = .text record.bundle := by
  simp only [Row.record?, bind, Option.bind_eq_some_iff, pure, Option.some.injEq] at h
  obtain ⟨pathId, -, name, -, kind, -, width, -, height, -, bundle, hbundle, container, -, rfl⟩ := h
  exact eq_text_of_textOf? hbundle

/-- The records of selected rows are those that the rows hold, if every row holds one. -/
theorem records_eq_ok {rows : List Row} {rs : List Record} (h : records rows = .ok rs) :
    rs = rows.filterMap Row.record? := by
  unfold records at h
  split at h
  · next hrows =>
      cases h
      have hmap := congrArg (List.filterMap id) (mapM_eq_some_iff.mp hrows)
      simpa using hmap.symm
  · cases h

/-- The records of selected rows are not found because of a row that holds none. -/
theorem exists_of_records_eq_error {rows : List Row} {e : Error} (h : records rows = .error e) :
    ∃ row ∈ rows, row.record? = none := by
  unfold records at h
  split at h
  · cases h
  · next hrows => exact exists_eq_none_of_mapM hrows

/-- Records are read off rows one by one. -/
theorem exists_row_of_records {rows : List Row} {rs : List Record} (h : records rows = .ok rs)
    {r : Record} (hr : r ∈ rs) : ∃ row ∈ rows, row.record? = some r := by
  rw [records_eq_ok h] at hr
  exact List.mem_filterMap.mp hr

namespace Store

variable {s : Store}

theorem exists_row_of_firstByBundle {rows : List Row} {r : Record}
    (h : s.firstByBundle rows = .ok (some r)) : ∃ row ∈ rows, row.record? = some r := by
  unfold firstByBundle at h
  split at h
  · cases h
  · next row hrow =>
      obtain ⟨rs, hrecords, hhead⟩ := map_eq_ok_iff.mp h
      obtain ⟨row', hrow', hrecord⟩ :=
        exists_row_of_records hrecords (List.mem_of_mem_head? hhead)
      obtain rfl := List.mem_singleton.mp hrow'
      exact ⟨row', List.mem_mergeSort.mp (List.mem_of_mem_head? hrow), hrecord⟩

/-- Some query of a store returns a record. -/
inductive Returns (s : Store) (r : Record) : Prop where
  | lookup {ids : List PathId} {kind : AssetKind} {rs : List Record}
      (h : s.lookup ids kind = .ok rs) (hr : r ∈ rs)
  | findByName {name : String} {kind : AssetKind} (h : s.findByName? name kind = .ok (some r))
  | findById {id : PathId} {kind : AssetKind} (h : s.findById? id kind = .ok (some r))
  | maskTextures {rs : List Record} (h : s.maskTextures = .ok rs) (hr : r ∈ rs)
  | recordsIn {bundle : String} {rs : List Record} (h : s.recordsIn bundle = .ok rs) (hr : r ∈ rs)

theorem mem_images_of_mem_rowsOfKind {kind : AssetKind} {row : Row} (h : row ∈ s.rowsOfKind kind) :
    row ∈ s.images :=
  Array.mem_toList_iff.mp (List.mem_of_mem_filter h)

/-- **What a query returns stands in a row of the store.** -/
theorem Returns.exists_row {r : Record} (h : s.Returns r) :
    ∃ row ∈ s.images, row.record? = some r := by
  cases h with
  | lookup h hr =>
      obtain ⟨row, hrow, hrecord⟩ := exists_row_of_records h hr
      obtain ⟨chunk, -, hselect⟩ := List.mem_flatMap.mp hrow
      have hkind := List.mem_of_mem_filter (List.mem_mergeSort.mp hselect)
      exact ⟨row, mem_images_of_mem_rowsOfKind hkind, hrecord⟩
  | findByName h =>
      obtain ⟨row, hrow, hrecord⟩ := exists_row_of_firstByBundle h
      exact ⟨row, mem_images_of_mem_rowsOfKind (List.mem_of_mem_filter hrow), hrecord⟩
  | findById h =>
      obtain ⟨row, hrow, hrecord⟩ := exists_row_of_firstByBundle h
      exact ⟨row, mem_images_of_mem_rowsOfKind (List.mem_of_mem_filter hrow), hrecord⟩
  | maskTextures h hr =>
      obtain ⟨row, hrow, hrecord⟩ := exists_row_of_records h hr
      have hkind := List.mem_of_mem_filter (List.mem_mergeSort.mp hrow)
      exact ⟨row, mem_images_of_mem_rowsOfKind hkind, hrecord⟩
  | recordsIn h hr =>
      obtain ⟨row, hrow, hrecord⟩ := exists_row_of_records h hr
      have hmem := List.mem_of_mem_filter (List.mem_mergeSort.mp hrow)
      exact ⟨row, Array.mem_toList_iff.mp hmem, hrecord⟩

end Store

end CharacterArt.Index
