import CharacterArt.Index.Sync

/-!
# The standard table of images

A database that was made here has the standard table of images.  That table takes every row that is
made from a record, leaves its fields as they are and gives it the next number.  Inserting the rows
of a bundle is therefore appending them, and a row belongs to a bundle exactly if it holds its name.
The same is true of other tables, and what follows from it is stated for all of them.

## Main Definitions

* `Table.IsPlain` — a table that does so
* `Row.isOf` — whether a row holds the name of a bundle
* `Row.unnumbered` — a row without its number

## Main Results

* `Table.standard_insert_ofRecord` — one more row stands at the end
* `Table.standard_isPlain` — the standard table is plain
* `Table.IsPlain.insertAll` — the rows of many records stand at the end, in their order
* `Store.belongsTo_eq` — rows belong to bundles by name
-/

namespace CharacterArt.Index

namespace Row

/-- Whether a row holds the name of a bundle. -/
def isOf (name : String) (r : Row) : Bool :=
  match r.bundle with
  | .text s => s == name
  | _ => false

theorem isOf_iff {name : String} {r : Row} : r.isOf name = true ↔ r.bundle = .text name := by
  unfold isOf
  cases r.bundle <;> simp

/-- A row without its number. -/
def unnumbered (r : Row) : Row :=
  { r with number := 0 }

/-- The rows of a bundle hold its name. -/
theorem bundle_of_mem_rowsOf {name : String} {entries : List Bundle.Entry} {r : Row}
    (h : r ∈ rowsOf name entries) : r.bundle = .text name := by
  obtain ⟨record, hrecord, rfl⟩ := List.mem_map.mp h
  obtain ⟨e, -, he⟩ := List.mem_filterMap.mp hrecord
  obtain ⟨kind, -, rfl⟩ := Option.map_eq_some_iff.mp he
  rfl

end Row

namespace Table

/-! ### What the standard table says of a row -/

/-- All that is asked of the standard table, in one evaluation. -/
theorem evaluated_standard :
    (standard.takesRows = true ∧ standard.numberField? = none ∧
      standard.collationOf .bundle = .binary) ∧
    (standard.affinityOf .pathId = .numeric ∧ standard.affinityOf .name = .text ∧
      standard.affinityOf .kind = .numeric ∧ standard.affinityOf .width = .numeric ∧
      standard.affinityOf .height = .numeric ∧ standard.affinityOf .bundle = .text ∧
      standard.affinityOf .container = .text) ∧
    ∀ f ∈ Field.all, (standard.column? f.column).any (fun c => !standard.isNumbers c.name &&
      Field.all.find? (fun g => sameName g.column c.name && !c.isComputed) == some f) = true := by
  decide +kernel

theorem standard_takesRows : standard.takesRows = true :=
  evaluated_standard.1.1

theorem standard_numberField? : standard.numberField? = none :=
  evaluated_standard.1.2.1

/-- The column of a field is that of no other field, and it does not hold the numbers. -/
theorem exists_standard_column? (f : Field) :
    ∃ c, standard.column? f.column = some c ∧ standard.isNumbers c.name = false ∧
      Field.all.find? (fun g => sameName g.column c.name && !c.isComputed) = some f := by
  have hfound := evaluated_standard.2.2 f (by cases f <;> decide)
  obtain ⟨c, hc, htest⟩ := (Option.any_eq_true _ _).mp hfound
  rw [Bool.and_eq_true, Bool.not_eq_true', beq_iff_eq] at htest
  exact ⟨c, hc, htest.1, htest.2⟩

/-- The column of a field holds the field. -/
theorem standard_cell_column (r : Row) (f : Field) : standard.cell r f.column = r.get f := by
  obtain ⟨c, hc, hnumbers, hfield⟩ := exists_standard_column? f
  rw [cell, cell?, cellWithin, hc]
  simp only [hnumbers, hfield]
  rfl

/-- Every column that has to hold something is that of a field. -/
theorem standard_required :
    ∀ c ∈ standard.columns, c.required = none ∨ ∃ f ∈ Field.all, f.column = c.name := by
  decide

/-- A row that holds something in every field lacks nothing. -/
theorem standard_lack?_eq_none {r : Row} (h : ∀ f, r.get f ≠ .null) :
    standard.lack? r = none := by
  rw [lack?, List.findSome?_eq_none_iff]
  intro c hc
  rcases standard_required c hc with hnone | ⟨f, -, hf⟩
  · simp [hnone]
  · rw [← hf, standard_cell_column]
    have hfull := h f
    cases hv : r.get f <;> simp_all

theorem get_ofRecord_ne_null (r : Record) (f : Field) : (Row.ofRecord r).get f ≠ .null := by
  cases f <;> simp [Row.ofRecord, Row.get]

/-- The fields of a record are what their columns hold, so nothing is adapted. -/
theorem standard_adapt_ofRecord (r : Record) :
    standard.adapt (Row.ofRecord r) = Row.ofRecord r := by
  obtain ⟨hpathId, hname, hkind, hwidth, hheight, hbundle, hcontainer⟩ := evaluated_standard.2.1
  simp only [adapt, Row.map, Row.ofRecord, hpathId, hname, hkind, hwidth, hheight,
    hbundle, hcontainer]
  rfl

/-! ### Inserting -/

/-- The number of the next row. -/
def nextNumber (rows : Array Row) : Int :=
  (rows.back?.map (·.number + 1)).getD 1

/-- A row with the next number stands at the end. -/
theorem place_nextNumber (rows : Array Row) (r : Row) :
    place rows { r with number := nextNumber rows } =
      rows.push { r with number := nextNumber rows } := by
  unfold place
  cases hback : rows.back? with
  | none =>
      rw [Array.back?_eq_none_iff.mp hback]
      rfl
  | some last =>
      have hlt : last.number < nextNumber rows := by
        rw [nextNumber, hback]
        exact Int.lt_succ last.number
      simp [hlt]

/-- The standard table takes the row of a record and puts it at the end. -/
theorem standard_insert_ofRecord (rows : Array Row) (r : Record) :
    standard.insert rows (Row.ofRecord r) =
      some (rows.push { Row.ofRecord r with number := nextNumber rows }) := by
  have hlack : standard.lack? { Row.ofRecord r with number := nextNumber rows } = none :=
    standard_lack?_eq_none fun f => by
      have hfull := get_ofRecord_ne_null r f
      cases f <;> exact hfull
  have hnumber : standard.numberFor? rows (Row.ofRecord r) = some (nextNumber rows) := by
    simp [numberFor?, standard_numberField?, nextNumber]
  have hmeets : standard.meets { Row.ofRecord r with number := nextNumber rows } = true := rfl
  have hclashes : standard.clashes { Row.ofRecord r with number := nextNumber rows } = [] := by
    simp only [clashes, standard_numberField?]
    rfl
  have hroom : makeRoom rows [] = some (rows, true) := rfl
  simp only [insert, standard_takesRows, standard_adapt_ofRecord, hnumber, Bool.not_true,
    Bool.false_eq_true, if_false, bind, Option.bind_some, hlack, hmeets, hclashes, hroom, pure,
    if_true, place_nextNumber]

/-- A table takes the rows of records as they are, it refers to no bundles, and it tells the names of
bundles apart. -/
structure IsPlain (t : Table) : Prop where
  affinity_eq : t.affinityOf .bundle = .text
  collation_eq : t.collationOf .bundle = .binary
  references_eq : t.references = []
  insert_ofRecord : ∀ rows r, t.insert rows (Row.ofRecord r) =
    some (rows.push { Row.ofRecord r with number := nextNumber rows })

theorem standard_isPlain : standard.IsPlain where
  affinity_eq := evaluated_standard.2.1.2.2.2.2.2.1
  collation_eq := evaluated_standard.1.2.2
  references_eq := rfl
  insert_ofRecord := standard_insert_ofRecord

/-- A plain table takes the rows of records and puts them at the end, in their order. -/
theorem IsPlain.insertAll {t : Table} (ht : t.IsPlain) (records : List Record) (rows : Array Row) :
    ∃ new : List Row, (records.map Row.ofRecord).foldlM t.insert rows =
        some (rows ++ new.toArray) ∧
      new.map Row.unnumbered = records.map Row.ofRecord := by
  induction records generalizing rows with
  | nil => exact ⟨[], by simp, rfl⟩
  | cons r rest ih =>
      let placed : Row := { Row.ofRecord r with number := nextNumber rows }
      obtain ⟨new, hnew, hfields⟩ := ih (rows.push placed)
      refine ⟨placed :: new, ?_, ?_⟩
      · rw [List.map_cons, List.foldlM_cons, ht.insert_ofRecord]
        simpa [placed] using hnew
      · rw [List.map_cons, hfields]
        rfl

end Table

namespace Store

/-- By a plain table a row is looked up for a bundle exactly if it holds its name. -/
theorem isEqual_bundle {s : Store} (hs : s.table.IsPlain) (name : String) (r : Row) :
    s.isEqual .bundle (.text name) r = r.isOf name := by
  unfold isEqual Row.isOf
  rw [hs.affinity_eq, hs.collation_eq]
  show Affinity.isEqual .text .binary r.bundle (.text name) = _
  cases hbundle : r.bundle with
  | text t =>
      show (Ord.compare t name == .eq) = (t == name)
      rw [Bool.eq_iff_iff]
      simp
  | null => rfl
  | integer i => rfl
  | real x => rfl

theorem belongsTo_eq {s : Store} (hs : s.table.IsPlain) (names : List String) (r : Row) :
    s.belongsTo names r = names.any fun name => r.isOf name := by
  unfold belongsTo
  simp only [isEqual_bundle hs]

/-- A plain table refers to no bundles. -/
theorem refersWell_eq_true {s : Store} (hs : s.table.IsPlain) (isDue : Bool)
    (rows : Array Row) : s.refersWell isDue rows = true := by
  unfold refersWell
  rw [hs.references_eq]
  rfl

end Store

end CharacterArt.Index
