import CharacterArt.Alpha.Name
import CharacterArt.Text.Blank
import CharacterArt.Text.Split

/-!
# Stems of outputs

Variants of one picture have names that differ in what stands at the end: a number after `_`, or a
group in parentheses.

## Main Definitions

* `dropVariant?` — a stem without one such ending
* `baseStem` — a stem without any
* `StemKey`, `stemKey` — what variants of one picture have in common
-/

namespace CharacterArt.Reconciliation

open Text (lowercase split joinWith trimEnd)

/-- A stem without the group in parentheses at its end, and without the blanks before it. -/
def dropGroup? (cs : List Char) : Option (List Char) :=
  match cs.reverse with
  | ')' :: back =>
    match back.dropWhile (· != '(') with
    | _ :: before => some (trimEnd before.reverse)
    | [] => none
  | _ => none

/-- A stem without the group or the number at its end. -/
def dropVariant? (cs : List Char) : Option (List Char) :=
  (dropGroup? cs).or (Alpha.dropNumber? cs)

theorem length_trimEnd_le (cs : List Char) : (trimEnd cs).length ≤ cs.length := by
  have := (List.dropWhile_sublist Text.isBlank (l := cs.reverse)).length_le
  simpa [trimEnd] using this

theorem length_of_dropGroup? {cs base : List Char} (h : dropGroup? cs = some base) :
    base.length < cs.length := by
  unfold dropGroup? at h
  split at h
  · rename_i back hr
    split at h
    · rename_i before hd
      have hl := (List.dropWhile_sublist (· != '(') (l := back)).length_le
      have hc : cs.length = back.length + 1 := by rw [← List.length_reverse, hr]; rfl
      rw [hd] at hl
      cases h
      have := length_trimEnd_le before.reverse
      simp only [List.length_cons, List.length_reverse] at hl this ⊢
      omega
    · cases h
  · cases h

/-- What is left is shorter. -/
theorem length_of_dropVariant? {cs base : List Char} (h : dropVariant? cs = some base) :
    base.length < cs.length := by
  unfold dropVariant? at h
  rcases hg : dropGroup? cs with _ | g
  · rw [hg, Option.none_or] at h
    exact Alpha.length_of_dropNumber? h
  · rw [hg, Option.some_or] at h
    cases h
    exact length_of_dropGroup? hg

/-- A stem without groups and numbers at its end. -/
def dropVariants (cs : List Char) : List Char :=
  match h : dropVariant? cs with
  | some base =>
    have := length_of_dropVariant? h
    dropVariants base
  | none => cs
termination_by cs.length

/-- A stem without blanks, groups and numbers at its end. -/
def baseStem (stem : String) : String :=
  String.ofList (dropVariants (trimEnd stem.toList))

/-- What variants of one picture have in common. -/
structure StemKey where
  /-- The base of the stem in lower case, without the marks of damaged pictures. -/
  text : String
  /-- Whether there is such a mark. -/
  damaged : Bool
  deriving DecidableEq, Repr

/-- The part of a stem that marks a damaged picture, in lower case. -/
def damageMark : List Char := ['d']

/-- What a stem has in common with the variants of its picture. -/
def stemKey (stem : String) : StemKey :=
  let parts := split '_' (lowercase (baseStem stem)).toList
  ⟨String.ofList (joinWith '_' (parts.filter (· != damageMark))), parts.contains damageMark⟩

end CharacterArt.Reconciliation
