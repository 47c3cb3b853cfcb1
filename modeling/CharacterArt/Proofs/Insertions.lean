import Mathlib.Data.List.Basic
import Std.Data.TreeMap.Lemmas

/-!
# What is put in last

A map that is filled from a list holds for every key what was put in last for it.  So the map depends
on the order of the list only as far as items compete for a key.

## Main Results

* `getElem?_foldl_insert_last` — what a map holds after the items of a list were put in
* `mem_of_find?_reverse`, `exists_find?_reverse` — what was put in last
-/

namespace CharacterArt

variable {α κ β : Type} [Ord κ] [Std.TransOrd κ] [Std.LawfulEqOrd κ] [BEq κ] [LawfulBEq κ]

/-- **A map holds what was put in last.** -/
theorem getElem?_foldl_insert_last (key : α → κ) (value : α → β) (xs : List α)
    (map : Std.TreeMap κ β) (k : κ) :
    (xs.foldl (fun map x => map.insert (key x) (value x)) map)[k]? =
      ((xs.reverse.find? fun x => key x == k).map value).or map[k]? := by
  induction xs generalizing map with
  | nil => rfl
  | cons x rest ih =>
      rw [List.foldl_cons, ih, Std.TreeMap.getElem?_insert, List.reverse_cons, List.find?_append,
        Option.map_or, Option.or_assoc]
      congr 1
      by_cases hx : key x = k
      · rw [if_pos (Std.compare_eq_iff_eq.mpr hx), List.find?_singleton,
          if_pos (beq_iff_eq.mpr hx)]
        rfl
      · rw [if_neg fun heq => hx (Std.compare_eq_iff_eq.mp heq), List.find?_singleton,
          if_neg fun heq => hx (beq_iff_eq.mp heq)]
        rfl

omit [Ord κ] [Std.TransOrd κ] [Std.LawfulEqOrd κ] in
/-- What was put in last for a key is one of the items. -/
theorem mem_of_find?_reverse {key : α → κ} {xs : List α} {k : κ} {x : α}
    (h : (xs.reverse.find? fun x => key x == k) = some x) : x ∈ xs ∧ key x = k :=
  ⟨List.mem_reverse.mp (List.mem_of_find?_eq_some h),
    beq_iff_eq.mp (List.find?_some (p := fun x => key x == k) h)⟩

omit [Ord κ] [Std.TransOrd κ] [Std.LawfulEqOrd κ] in
/-- If something was put in for a key, something was put in last. -/
theorem exists_find?_reverse (key : α → κ) {xs : List α} {x : α} (h : x ∈ xs) :
    ∃ last, (xs.reverse.find? fun y => key y == key x) = some last :=
  Option.isSome_iff_exists.mp
    (List.find?_isSome.mpr ⟨x, List.mem_reverse.mpr h, beq_self_eq_true (key x)⟩)

end CharacterArt
