import CharacterArt.Proofs.Index.Insertion
import CharacterArt.Proofs.Index.Selection
import CharacterArt.Proofs.Resolution.Completeness
import Mathlib.Data.Finset.Card
import Mathlib.Data.List.Perm.Basic

/-!
# How often a query in chunks finds a record

A query for numbers asks in chunks of a thousand, and a row is found once for each chunk that holds
its number.  Position `i` of a list lies in piece `i / n`, so the pieces that hold a number can be
counted without cutting the list (`pieces`), and the chunks that hold it are as many
(`countP_chunks`).  A number that stands in a list once lies in one piece, so for a list without
repeats the chunks make no difference.

## Main Definitions

* `pieces` — the pieces of a list that hold an item
* `Store.held` — the records that the rows of a store hold

## Main Results

* `countP_chunks` — as many chunks hold an item as pieces do
* `Store.filterMap_select_perm` — what one query finds
* `Store.perm_of_lookup` — what a query in chunks finds, and when it fails
-/

namespace CharacterArt.Index

/-! ### Pieces of a list -/

section Pieces

variable {α : Type} [DecidableEq α] {n : Nat} {xs : List α} {x : α}

/-- The pieces of `n` positions of a list in which an item stands. -/
def pieces (n : Nat) (xs : List α) (x : α) : Finset Nat :=
  ((Finset.range xs.length).filter fun i => xs[i]? = some x).image (· / n)

theorem mem_pieces {k : Nat} : k ∈ pieces n xs x ↔ ∃ i, xs[i]? = some x ∧ i / n = k := by
  simp only [pieces, Finset.mem_image, Finset.mem_filter, Finset.mem_range]
  constructor
  · rintro ⟨i, ⟨-, hi⟩, hk⟩
    exact ⟨i, hi, hk⟩
  · rintro ⟨i, hi, hk⟩
    exact ⟨i, ⟨(List.getElem?_eq_some_iff.mp hi).1, hi⟩, hk⟩

/-- The first piece is the front of the list. -/
theorem zero_mem_pieces (hn : 0 < n) : 0 ∈ pieces n xs x ↔ x ∈ xs.take n := by
  rw [mem_pieces, List.mem_iff_getElem?]
  refine exists_congr fun i => ?_
  rw [Nat.div_eq_zero_iff_lt hn, List.getElem?_take]
  by_cases hi : i < n <;> simp [hi]

/-- The other pieces are those of the rest. -/
theorem succ_mem_pieces (hn : 0 < n) {k : Nat} :
    k + 1 ∈ pieces n xs x ↔ k ∈ pieces n (xs.drop n) x := by
  simp only [mem_pieces, List.getElem?_drop]
  constructor
  · rintro ⟨i, hi, hk⟩
    have hle : n ≤ i := (Nat.one_le_div_iff hn).mp (hk ▸ Nat.le_add_left 1 k)
    refine ⟨i - n, ?_, ?_⟩
    · rw [Nat.add_sub_cancel' hle, hi]
    · rw [Nat.div_eq_sub_div hn hle] at hk
      exact Nat.succ.inj hk
  · rintro ⟨i, hi, rfl⟩
    exact ⟨n + i, hi, by rw [Nat.add_div_left i hn]⟩

theorem card_pieces_eq (hn : 0 < n) (xs : List α) (x : α) :
    (pieces n xs x).card =
      (if x ∈ xs.take n then 1 else 0) + (pieces n (xs.drop n) x).card := by
  have hsplit : pieces n xs x =
      (if x ∈ xs.take n then {0} else ∅) ∪ (pieces n (xs.drop n) x).image Nat.succ := by
    ext k
    rcases k with - | k
    · rw [zero_mem_pieces hn]
      split_ifs with h <;> simp [h]
    · rw [succ_mem_pieces hn]
      split_ifs with h <;> simp
  have hdisjoint : Disjoint (if x ∈ xs.take n then ({0} : Finset Nat) else ∅)
      ((pieces n (xs.drop n) x).image Nat.succ) := by
    split_ifs <;> simp
  rw [hsplit, Finset.card_union_of_disjoint hdisjoint,
    Finset.card_image_of_injective _ Nat.succ_injective]
  split_ifs <;> rfl

/-- **As many chunks of a list hold an item as pieces do.** -/
theorem countP_chunks (hn : 0 < n) (xs : List α) (x : α) :
    (chunks n xs).countP (fun chunk => decide (x ∈ chunk)) = (pieces n xs x).card := by
  fun_induction chunks n xs with
  | case1 xs h =>
      obtain rfl := h.resolve_left (Nat.ne_of_gt hn)
      rfl
  | case2 xs h hlt ih =>
      rw [List.countP_cons, ih, card_pieces_eq hn xs, Nat.add_comm]
      simp only [decide_eq_true_eq]

/-- What is not in a list is in no piece of it. -/
theorem pieces_eq_empty (hx : x ∉ xs) (n : Nat) : pieces n xs x = ∅ := by
  rw [Finset.eq_empty_iff_forall_notMem]
  intro k hk
  obtain ⟨i, hi, -⟩ := mem_pieces.mp hk
  exact hx (List.mem_of_getElem? hi)

/-- An item of a list without repeats lies in one piece. -/
theorem card_pieces_of_nodup (hxs : xs.Nodup) (n : Nat) (x : α) :
    (pieces n xs x).card = if x ∈ xs then 1 else 0 := by
  split
  · next hx =>
      obtain ⟨i, hi⟩ := List.mem_iff_getElem?.mp hx
      rw [Finset.card_eq_one]
      refine ⟨i / n, ?_⟩
      ext k
      rw [mem_pieces, Finset.mem_singleton]
      constructor
      · rintro ⟨j, hj, rfl⟩
        have hlt : j < xs.length := (List.getElem?_eq_some_iff.mp hj).1
        rw [(List.getElem?_inj hlt hxs).mp (hj.trans hi.symm)]
      · rintro rfl
        exact ⟨i, hi, rfl⟩
  · next hx => rw [pieces_eq_empty hx, Finset.card_empty]

end Pieces

/-- What several queries select is each item as often as there are queries for it. -/
theorem flatMap_filter_perm {α β : Type} (p : β → α → Bool) (asked : List β) (rows : List α) :
    (asked.flatMap fun q => rows.filter (p q)).Perm
      (rows.flatMap fun r => List.replicate (asked.countP (p · r)) r) := by
  induction asked with
  | nil => simp
  | cons q rest ih =>
      have hcons : (rows.flatMap fun r => List.replicate ((q :: rest).countP (p · r)) r) =
          rows.flatMap fun r => (if p q r then [r] else []) ++
            List.replicate (rest.countP (p · r)) r := by
        refine congrArg (List.flatMap · rows) (funext fun r => ?_)
        rw [List.countP_cons]
        cases p q r <;> simp [List.replicate_succ]
      have hfilter : rows.filter (p q) = rows.flatMap fun r => if p q r then [r] else [] := by
        rw [← List.filterMap_eq_filter, List.filterMap_eq_flatMap_toList]
        refine congrArg (List.flatMap · rows) (funext fun r => ?_)
        cases hr : p q r <;> simp [Option.guard, hr]
      rw [List.flatMap_cons, hcons, hfilter]
      exact (ih.append_left _).trans (List.flatMap_append_perm rows _ _)

/-! ### Columns of numbers -/

/-- A column that keeps a whole number tells it from all others. -/
theorem Affinity.isEqual_integer_of_adapt {a : Affinity} {v : Value} {i : Int}
    (h : .integer i = a.adapt v) (c : Collation) (j : Int) :
    a.isEqual c (.integer i) (.integer j) = (i == j) := by
  cases a with
  | numeric => exact isEqual_integer c i j
  | blob => exact isEqual_integer c i j
  | real => exact isEqual_integer c i j
  | text =>
      -- a column of texts keeps no number
      cases v <;> cases h

theorem eq_integer_of_idOf? {v : Value} {id : PathId} (h : idOf? v = some id) :
    v = .integer id.toInt := by
  unfold idOf? at h
  split at h
  · next i =>
      split at h
      · next hshort =>
          cases h
          rw [Value.isShort, Bool.and_eq_true, decide_eq_true_iff, decide_eq_true_iff] at hshort
          rw [Int64.toInt_ofInt_of_le hshort.1 (Int.lt_add_one_of_le hshort.2)]
      · cases h
  · cases h

theorem eq_integer_of_kindOf? {v : Value} {kind : AssetKind} (h : kindOf? v = some kind) :
    v = .integer kind.tag.toNat := by
  unfold kindOf? at h
  split at h <;> cases h <;> rfl

/-- The number and the kind of a record are those that its row holds. -/
theorem Row.eq_of_record? {row : Row} {r : Record} (h : row.record? = some r) :
    row.pathId = .integer r.pathId.toInt ∧ row.kind = .integer r.kind.tag.toNat := by
  simp only [record?, bind, Option.bind_eq_some_iff, pure, Option.some.injEq] at h
  obtain ⟨pathId, hid, name, -, kind, hkind, width, -, height, -, bundle, -, container, -, rfl⟩ := h
  exact ⟨eq_integer_of_idOf? hid, eq_integer_of_kindOf? hkind⟩

/-! ### Queries -/

namespace Store

variable {s : Store} {kind : AssetKind} {ids : List PathId}

/-- The records that the rows of a store hold. -/
def held (s : Store) : List Record :=
  s.images.toList.filterMap Row.record?

/-- The rows of records hold these. -/
theorem held_of_records {rs : List Record} (h : s.images = (rs.map Row.ofRecord).toArray) :
    s.held = rs := by
  rw [held, h, List.filterMap_map]
  simp [Row.record?_ofRecord]

/-- The rows of records are as the columns of the standard table keep them. -/
theorem isKept_of_records {rs : List Record} (htable : s.table = .standard)
    (h : s.images = (rs.map Row.ofRecord).toArray) : s.IsKept := by
  intro row hrow
  rw [h, List.mem_toArray] at hrow
  obtain ⟨r, -, rfl⟩ := List.mem_map.mp hrow
  have hkeeps := Table.standard.keeps_adapt (Row.ofRecord r) 0
  rwa [Table.standard_adapt_ofRecord, ← htable] at hkeeps

/-- Whether a query for numbers selects a row. -/
def selects (s : Store) (kind : AssetKind) (ids : List PathId) (row : Row) : Bool :=
  s.isEqual .kind (.integer kind.tag.toNat) row &&
    ids.any fun id => s.isEqual .pathId (.integer id.toInt) row

theorem select_perm (s : Store) (kind : AssetKind) (ids : List PathId) :
    (s.select kind ids).Perm (s.images.toList.filter (s.selects kind ids)) := by
  refine (List.mergeSort_perm _ _).trans (.of_eq ?_)
  rw [rowsOfKind, List.filter_filter]
  exact congrArg (List.filter · _) (funext fun row => Bool.and_comm _ _)

/-- A row that is as the columns keep it is asked for by the kind of its record. -/
theorem IsKept.isEqual_kind (hs : s.IsKept) {row : Row} {r : Record} (hrow : row ∈ s.images)
    (hr : row.record? = some r) (kind : AssetKind) :
    s.isEqual .kind (.integer kind.tag.toNat) row = decide (r.kind = kind) := by
  obtain ⟨-, hkind⟩ := Row.eq_of_record? hr
  obtain ⟨w, hw⟩ := hs row hrow .kind
  show Affinity.isEqual _ _ row.kind _ = _
  rw [hkind, Affinity.isEqual_integer_of_adapt (hkind.symm.trans hw)]
  cases r.kind <;> cases kind <;> decide

/-- A row that is as the columns keep it is selected by the kind and the number of its record. -/
theorem IsKept.selects_eq (hs : s.IsKept) {row : Row} {r : Record} (hrow : row ∈ s.images)
    (hr : row.record? = some r) (kind : AssetKind) (ids : List PathId) :
    s.selects kind ids row = decide (r.kind = kind ∧ r.pathId ∈ ids) := by
  obtain ⟨hid, -⟩ := Row.eq_of_record? hr
  obtain ⟨v, hv⟩ := hs row hrow .pathId
  have hidEq : ∀ id : PathId, s.isEqual .pathId (.integer id.toInt) row = decide (r.pathId = id) := by
    intro id
    show Affinity.isEqual _ _ row.pathId _ = _
    rw [hid, Affinity.isEqual_integer_of_adapt (hid.symm.trans hv), Bool.eq_iff_iff, beq_iff_eq,
      decide_eq_true_iff, Int64.toInt_inj]
  rw [selects, hs.isEqual_kind hrow hr, Bool.decide_and]
  simp only [hidEq]
  congr 1
  rw [Bool.eq_iff_iff, List.any_eq_true]
  simp

/-- **What one query finds**: the records of the kind and the numbers, each as often as rows hold
it. -/
theorem filterMap_select_perm (hs : s.IsKept) (kind : AssetKind) (ids : List PathId) :
    ((s.select kind ids).filterMap Row.record?).Perm
      (s.held.filter fun r => r.kind = kind ∧ r.pathId ∈ ids) := by
  refine ((s.select_perm kind ids).filterMap _).trans (.of_eq ?_)
  rw [held, List.filter_filterMap, List.filterMap_filter]
  refine List.filterMap_congr fun row hrow => ?_
  cases hr : row.record? with
  | none => simp
  | some r =>
      rw [hs.selects_eq (Array.mem_toList_iff.mp hrow) hr]
      by_cases h : r.kind = kind ∧ r.pathId ∈ ids <;> simp [Option.filter, h]

/-- What queries for the chunks of a list find together. -/
theorem filterMap_chunks_perm (hs : s.IsKept) (kind : AssetKind) {n : Nat} (hn : 0 < n)
    (ids : List PathId) :
    (((chunks n ids).flatMap (s.select kind)).filterMap Row.record?).Perm
      ((s.held.filter (·.kind = kind)).flatMap fun r =>
        List.replicate (pieces n ids r.pathId).card r) := by
  rw [List.filterMap_flatMap]
  refine (List.Perm.flatMap_left _ fun chunk _ => filterMap_select_perm hs kind chunk).trans ?_
  have hfilter : ∀ chunk : List PathId,
      (s.held.filter fun r => r.kind = kind ∧ r.pathId ∈ chunk) =
        (s.held.filter (·.kind = kind)).filter fun r => r.pathId ∈ chunk := by
    intro chunk
    rw [List.filter_filter]
    refine congrArg (List.filter · _) (funext fun r => ?_)
    rw [Bool.decide_and, Bool.and_comm]
  simp only [hfilter]
  refine (flatMap_filter_perm (fun chunk (r : Record) => decide (r.pathId ∈ chunk)) _ _).trans (.of_eq ?_)
  simp only [countP_chunks hn]

/-- A list without repeats asks for each record once. -/
theorem flatMap_replicate_of_nodup (hids : ids.Nodup) (n : Nat) (rs : List Record) :
    (rs.flatMap fun r => List.replicate (pieces n ids r.pathId).card r) =
      rs.filter (·.pathId ∈ ids) := by
  simp only [card_pieces_of_nodup hids]
  rw [← List.filterMap_eq_filter, List.filterMap_eq_flatMap_toList]
  refine congrArg (List.flatMap · rs) (funext fun r => ?_)
  by_cases h : r.pathId ∈ ids <;> simp [Option.guard, h]

/-- **What a query in chunks finds.**  A record of the kind is found once for every piece of a
thousand positions that holds its number, and no other record is found; in a list without repeats
every record of the kind and the numbers is found once for every row of it.  The query fails only if
it selects a row that holds no record.  The numbers that a run looks up have no repeats. -/
theorem perm_of_lookup (hs : s.IsKept) (ids : List PathId) (kind : AssetKind) :
    (match s.lookup ids kind with
      | .ok rs =>
        rs.Perm ((s.held.filter (·.kind = kind)).flatMap fun r =>
          List.replicate (pieces 1000 ids r.pathId).card r) ∧
        (ids.Nodup → rs.Perm (s.held.filter fun r => r.kind = kind ∧ r.pathId ∈ ids))
      | .error _ =>
        ∃ row ∈ s.images, row.record? = none ∧ s.selects kind ids row = true) ∧
      ∀ reqs : Requirements, (Requirements.ids reqs).Nodup := by
  refine ⟨?_, fun reqs => (Requirements.pairwise_ids reqs).imp fun hlt => Int64.ne_of_lt hlt⟩
  have hfound := s.filterMap_chunks_perm hs kind (n := chunkSize) (by decide) ids
  cases hlookup : s.lookup ids kind with
  | ok rs =>
      rw [← records_eq_ok hlookup] at hfound
      refine ⟨hfound, fun hids => hfound.trans (.of_eq ?_)⟩
      rw [flatMap_replicate_of_nodup hids, List.filter_filter]
      refine congrArg (List.filter · _) (funext fun r => ?_)
      rw [Bool.decide_and, Bool.and_comm]
  | error e =>
      obtain ⟨row, hrow, hnone⟩ := exists_of_records_eq_error hlookup
      obtain ⟨chunk, hchunk, hselect⟩ := List.mem_flatMap.mp hrow
      obtain ⟨himage, hselects⟩ := List.mem_filter.mp ((s.select_perm kind chunk).mem_iff.mp hselect)
      refine ⟨row, Array.mem_toList_iff.mp himage, hnone, ?_⟩
      rw [selects, Bool.and_eq_true, List.any_eq_true] at hselects ⊢
      obtain ⟨hkind, id, hid, hequal⟩ := hselects
      have hmem : id ∈ (chunks chunkSize ids).flatten := List.mem_flatten_of_mem hchunk hid
      rw [flatten_chunks (by decide)] at hmem
      exact ⟨hkind, id, hmem, hequal⟩

end Store

/-! ### A number on both sides of a border

A store has two textures and a sprite.  A list of 1001 numbers, all of them that of a texture and the
sprite, has the number in two pieces. -/

namespace Bordered

def hero : Record := ⟨1, "hero", .texture, 2, 2, "art", ""⟩

def foe : Record := ⟨2, "foe", .texture, 2, 2, "art", ""⟩

def drawn : List Record :=
  [hero, { hero with kind := .sprite }, foe]

def store : Store where
  bundles := Std.TreeMap.ofList [("art", 100)]
  images := (drawn.map Row.ofRecord).toArray

theorem isKept_store : store.IsKept :=
  Store.isKept_of_records rfl rfl

theorem held_store : store.held = drawn :=
  Store.held_of_records rfl

/-- The number of a list of 1001 equal ones lies in two pieces. -/
theorem pieces_replicate (id : PathId) : pieces 1000 (List.replicate 1001 id) id = {0, 1} := by
  ext k
  simp only [mem_pieces, List.getElem?_replicate, Finset.mem_insert, Finset.mem_singleton]
  constructor
  · rintro ⟨i, hi, rfl⟩
    have hlt : i < 1001 := by
      by_contra hge
      rw [if_neg hge] at hi
      cases hi
    omega
  · rintro (rfl | rfl)
    · exact ⟨0, rfl, rfl⟩
    · exact ⟨1000, rfl, rfl⟩

end Bordered

open Bordered in
theorem Store.perm_of_lookup_bordered :
    store.IsKept ∧ ∃ rs, store.lookup (List.replicate 1001 1) .texture = .ok rs ∧
      rs.Perm [hero, hero] := by
  refine ⟨isKept_store, ?_⟩
  have hlookup := (Store.perm_of_lookup isKept_store (List.replicate 1001 1) .texture).1
  split at hlookup
  · next rs hrs =>
      refine ⟨rs, hrs, hlookup.1.trans (.of_eq ?_)⟩
      have htextures : store.held.filter (·.kind = .texture) = [hero, foe] := by
        rw [held_store]
        rfl
      have hfoe : foe.pathId ∉ List.replicate 1001 (1 : PathId) := by
        rw [List.mem_replicate]
        decide
      simp only [htextures, List.flatMap_cons, List.flatMap_nil, pieces_eq_empty hfoe]
      rw [show hero.pathId = 1 from rfl, pieces_replicate]
      rfl
  · obtain ⟨row, hrow, hnone, -⟩ := hlookup
    rw [store, List.mem_toArray] at hrow
    obtain ⟨r, -, rfl⟩ := List.mem_map.mp hrow
    rw [Row.record?_ofRecord] at hnone
    cases hnone

end CharacterArt.Index
