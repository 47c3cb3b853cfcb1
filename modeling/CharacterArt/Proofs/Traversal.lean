import Mathlib.Data.List.Basic

/-!
# Chains and lists of results

A chain of steps succeeds exactly if its steps do, and it fails with the error of the first one that
fails.  Many functions do something with every item of a list and fail if one item fails.  Such a
function succeeds exactly if each item succeeds, and then its values are theirs.

## Main Results

* `bind_eq_ok_iff`, `bind_eq_error_iff`, `map_eq_ok_iff`, `map_eq_error_iff` — two steps
* `exists_eq_ok_of_any`, `failure?_eq_some_iff` — a result that is checked, and one that is a failure
* `mapM_eq_some_iff`, `mapM_eq_ok_iff`, `exists_mapM_eq_ok` — all items, as options and as results
* `exists_eq_none_of_mapM` — an item without a value
* `mem_iff_of_mapM_eq_ok`, `exists_of_mapM_eq_ok`, `pairwise_of_mapM_eq_ok` — the values of a list
  of results
-/

namespace CharacterArt

variable {α β ε : Type}

theorem bind_eq_ok_iff {x : Except ε α} {f : α → Except ε β} {b : β} :
    x >>= f = .ok b ↔ ∃ a, x = .ok a ∧ f a = .ok b := by
  cases x <;> simp [bind, Except.bind]

theorem bind_eq_error_iff {x : Except ε α} {f : α → Except ε β} {e : ε} :
    x >>= f = .error e ↔ x = .error e ∨ ∃ a, x = .ok a ∧ f a = .error e := by
  cases x <;> simp [bind, Except.bind]

theorem map_eq_ok_iff {x : Except ε α} {f : α → β} {b : β} :
    x.map f = .ok b ↔ ∃ a, x = .ok a ∧ f a = b := by
  cases x <;> simp [Except.map]

theorem map_eq_error_iff {x : Except ε α} {f : α → β} {e : ε} :
    x.map f = .error e ↔ x = .error e := by
  cases x <;> simp [Except.map]

/-- A result that passes a check is a success. -/
theorem exists_eq_ok_of_any {x : Except ε α} {p : α → Bool} (h : x.toOption.any p = true) :
    ∃ a, x = .ok a ∧ p a = true := by
  cases x with
  | error e => cases h
  | ok a => exact ⟨a, rfl, h⟩

/-- The error of a computation that fails. -/
def failure? : Except ε α → Option ε
  | .ok _ => none
  | .error e => some e

theorem failure?_eq_some_iff {x : Except ε α} {e : ε} : failure? x = some e ↔ x = .error e := by
  cases x <;> simp [failure?]

theorem mapM_eq_some_iff {f : α → Option β} {xs : List α} {ys : List β} :
    xs.mapM f = some ys ↔ xs.map f = ys.map some := by
  induction xs generalizing ys with
  | nil => cases ys <;> simp
  | cons x rest ih =>
      rw [List.mapM_cons]
      simp only [bind, pure, Option.bind_eq_some_iff, ih, Option.some.injEq]
      constructor
      · rintro ⟨y, hx, zs, hrest, rfl⟩
        rw [List.map_cons, List.map_cons, hx, hrest]
      · intro h
        cases ys with
        | nil => simp at h
        | cons y zs =>
            rw [List.map_cons, List.map_cons, List.cons.injEq] at h
            exact ⟨y, h.1, zs, h.2, rfl⟩

/-- If there are no values then some item has none. -/
theorem exists_eq_none_of_mapM {f : α → Option β} {xs : List α} (h : xs.mapM f = none) :
    ∃ x ∈ xs, f x = none := by
  by_contra hall
  push Not at hall
  have hvalues : xs.map f = (xs.filterMap f).map some := by
    rw [List.map_filterMap_some_eq_filter_map_isSome, List.filter_eq_self.mpr]
    intro y hy
    obtain ⟨x, hx, rfl⟩ := List.mem_map.mp hy
    exact Option.isSome_iff_ne_none.mpr (hall x hx)
  rw [mapM_eq_some_iff.mpr hvalues] at h
  cases h

theorem mapM_eq_ok_iff {f : α → Except ε β} {xs : List α} {ys : List β} :
    xs.mapM f = .ok ys ↔ xs.map f = ys.map .ok := by
  induction xs generalizing ys with
  | nil => cases ys <;> simp [pure, Except.pure]
  | cons x rest ih =>
      have hbind : (x :: rest).mapM f = .ok ys ↔
          ∃ y, f x = .ok y ∧ ∃ zs, rest.mapM f = .ok zs ∧ y :: zs = ys := by
        rw [List.mapM_cons, bind_eq_ok_iff]
        simp only [bind_eq_ok_iff, pure, Except.pure, Except.ok.injEq]
      rw [hbind]
      constructor
      · rintro ⟨y, hx, zs, hrest, rfl⟩
        rw [List.map_cons, List.map_cons, hx, ih.mp hrest]
      · intro h
        cases ys with
        | nil => simp at h
        | cons y zs =>
            rw [List.map_cons, List.map_cons, List.cons.injEq] at h
            exact ⟨y, h.1, zs, ih.mpr h.2, rfl⟩

/-- The values of a list of results are those of its items. -/
theorem mem_iff_of_mapM_eq_ok {f : α → Except ε β} {xs : List α} {ys : List β}
    (h : xs.mapM f = .ok ys) {y : β} : y ∈ ys ↔ ∃ x ∈ xs, f x = .ok y := by
  have hmem : y ∈ ys ↔ (Except.ok y : Except ε β) ∈ ys.map .ok := by
    simp
  rw [hmem, ← mapM_eq_ok_iff.mp h, List.mem_map]

theorem exists_of_mapM_eq_ok {f : α → Except ε β} {xs : List α} {ys : List β}
    (h : xs.mapM f = .ok ys) {x : α} (hx : x ∈ xs) : ∃ y ∈ ys, f x = .ok y := by
  have hmem : f x ∈ ys.map .ok := by
    rw [← mapM_eq_ok_iff.mp h]
    exact List.mem_map_of_mem hx
  obtain ⟨y, hy, heq⟩ := List.mem_map.mp hmem
  exact ⟨y, hy, heq.symm⟩

/-- What relates the items of a list two by two relates their values. -/
theorem pairwise_of_mapM_eq_ok {f : α → Except ε β} {xs : List α} {ys : List β}
    {R : α → α → Prop} {S : β → β → Prop} (h : xs.mapM f = .ok ys) (hxs : xs.Pairwise R)
    (hvalues : ∀ x ∈ xs, ∀ x' ∈ xs, R x x' → ∀ y y', f x = .ok y → f x' = .ok y' → S y y') :
    ys.Pairwise S := by
  have hresults : (xs.map f).Pairwise fun u v => ∀ y y', u = .ok y → v = .ok y' → S y y' := by
    rw [List.pairwise_map]
    exact hxs.imp_of_mem fun {x x'} hx hx' hrel => hvalues x hx x' hx' hrel
  rw [mapM_eq_ok_iff.mp h, List.pairwise_map] at hresults
  exact hresults.imp fun hrel => hrel _ _ rfl rfl

theorem exists_mapM_eq_ok {f : α → Except ε β} {xs : List α} (h : ∀ x ∈ xs, ∃ y, f x = .ok y) :
    ∃ ys, xs.mapM f = .ok ys := by
  induction xs with
  | nil => exact ⟨[], rfl⟩
  | cons x rest ih =>
      obtain ⟨y, hy⟩ := h x List.mem_cons_self
      obtain ⟨ys, hys⟩ := ih fun z hz => h z (List.mem_cons_of_mem x hz)
      refine ⟨y :: ys, ?_⟩
      rw [mapM_eq_ok_iff, List.map_cons, hy, mapM_eq_ok_iff.mp hys, List.map_cons]

end CharacterArt
