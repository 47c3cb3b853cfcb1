import CharacterArt.Proofs.Alpha.Names
import CharacterArt.Proofs.Path
import CharacterArt.Reconciliation.Stem
import Mathlib.Data.List.DropRight
import Mathlib.Logic.Relation

/-!
# Stems and their variants

A stem loses the groups and numbers at its end one after the other, and what is left has none.  Two
stems that differ in such endings alone have one key.

The blanks before a group go with it, but those before a number stay.  What is left ends in a blank if
one stood before a number, and then it is not its own base: the blank hides the endings before it.

## Main Definitions

* `Text.IsTrimmed` — texts without a blank at the end
* `EndsInGroup`, `EndsInNumber` — texts with an ending of a variant
* `Drops` — how a text loses one ending
* `IsVariant` — stems that differ from another one in their endings alone

## Main Results

* `dropVariant?_eq_some_iff` — one step towards the base
* `baseStem_exact` — the base of a stem, and when it is its own base
* `stemKey_exact` — variants of an output have one key
-/

namespace CharacterArt

namespace Text

variable {cs : List Char} {c : Char}

/-! ### Blanks at the end -/

/-- No blank stands at the end of a text. -/
def IsTrimmed (cs : List Char) : Prop :=
  cs.getLast?.any isBlank = false

instance (cs : List Char) : Decidable (IsTrimmed cs) :=
  inferInstanceAs (Decidable (_ = _))

theorem isTrimmed_concat : IsTrimmed (cs ++ [c]) ↔ isBlank c = false := by
  simp [IsTrimmed]

theorem trimEnd_eq_self_iff : trimEnd cs = cs ↔ IsTrimmed cs := by
  have hdrop : trimEnd cs = cs ↔ ∀ hne : cs ≠ [], ¬isBlank (cs.getLast hne) = true :=
    List.rdropWhile_eq_self_iff
  rw [hdrop]
  cases cs using List.reverseRecOn with
  | nil => simp [IsTrimmed]
  | append_singleton cs c => simp [isTrimmed_concat]

theorem isTrimmed_trimEnd (cs : List Char) : IsTrimmed (trimEnd cs) :=
  trimEnd_eq_self_iff.mp (List.rdropWhile_idempotent isBlank cs)

theorem trimEnd_prefix (cs : List Char) : trimEnd cs <+: cs :=
  List.rdropWhile_prefix isBlank cs

theorem trimEnd_concat_of_isBlank (h : isBlank c = true) : trimEnd (cs ++ [c]) = trimEnd cs :=
  List.rdropWhile_concat_pos isBlank cs c h

theorem isBlank_of_isDigit (h : c.isDigit = true) : isBlank c = false := by
  obtain ⟨hleast, hgreatest⟩ := Alpha.bounds_of_isDigit h
  simp only [isBlank, Bool.or_eq_false_iff, beq_eq_false_iff_ne, decide_eq_false_iff_not]
  omega

end Text

namespace Reconciliation

open Relation (ReflTransGen)
open Text (IsTrimmed isBlank trimEnd)

variable {cs base next front body digits : List Char} {stem variant : String} {c : Char}

/-! ### Endings -/

/-- A text ends in a group in parentheses. -/
def EndsInGroup (cs : List Char) : Prop :=
  ∃ front body, cs = front ++ '(' :: (body ++ [')'])

/-- A text ends in a number, and something stands before. -/
def EndsInNumber (cs : List Char) : Prop :=
  ∃ base digits, base ≠ [] ∧ digits ≠ [] ∧ (∀ d ∈ digits, d.isDigit = true) ∧
    cs = base ++ '_' :: digits

/-- A text loses the ending of a variant: a group with the blanks before it, or a number. -/
inductive Drops : List Char → List Char → Prop
  | group {front body : List Char} : '(' ∉ body →
      Drops (front ++ '(' :: (body ++ [')'])) (trimEnd front)
  | number {base digits : List Char} : base ≠ [] → digits ≠ [] →
      (∀ d ∈ digits, d.isDigit = true) → Drops (base ++ '_' :: digits) base

theorem isTrimmed_group : IsTrimmed (front ++ '(' :: (body ++ [')'])) := by
  rw [← List.cons_append, ← List.append_assoc, Text.isTrimmed_concat]
  rfl

/-- A number ends in a digit. -/
theorem exists_concat_of_digits (base : List Char) (hne : digits ≠ [])
    (hall : ∀ d ∈ digits, d.isDigit = true) :
    ∃ front c, c.isDigit = true ∧ base ++ '_' :: digits = front ++ [c] := by
  refine ⟨base ++ '_' :: digits.dropLast, digits.getLast hne, hall _ (List.getLast_mem hne), ?_⟩
  rw [List.append_assoc, List.cons_append, List.dropLast_append_getLast]

theorem isTrimmed_number (hne : digits ≠ []) (hall : ∀ d ∈ digits, d.isDigit = true) :
    IsTrimmed (base ++ '_' :: digits) := by
  obtain ⟨front, c, hc, heq⟩ := exists_concat_of_digits base hne hall
  rw [heq, Text.isTrimmed_concat]
  exact Text.isBlank_of_isDigit hc

/-- The last opening parenthesis opens the group at the end. -/
theorem EndsInGroup.exists_last (h : EndsInGroup cs) :
    ∃ front body, '(' ∉ body ∧ cs = front ++ '(' :: (body ++ [')']) := by
  obtain ⟨front, body, rfl⟩ := h
  obtain ⟨after, before, hsplit, hnot⟩ :=
    List.eq_append_cons_of_mem (show '(' ∈ (front ++ '(' :: body).reverse by simp)
  refine ⟨before.reverse, after.reverse, by simpa using hnot, ?_⟩
  have hopen : front ++ '(' :: body = before.reverse ++ '(' :: after.reverse := by
    rw [← List.reverse_reverse (front ++ '(' :: body), hsplit]
    simp
  rw [← List.cons_append, ← List.append_assoc, hopen, List.append_assoc, List.cons_append]

/-- **A text that loses no ending has none.** -/
theorem exists_drops_iff : (∃ next, Drops cs next) ↔ EndsInGroup cs ∨ EndsInNumber cs := by
  constructor
  · rintro ⟨next, hdrops⟩
    cases hdrops with
    | group => exact .inl ⟨_, _, rfl⟩
    | number hbase hdigits hall => exact .inr ⟨_, _, hbase, hdigits, hall, rfl⟩
  · rintro (hgroup | ⟨base, digits, hbase, hdigits, hall, rfl⟩)
    · obtain ⟨front, body, hbody, rfl⟩ := hgroup.exists_last
      exact ⟨_, .group hbody⟩
    · exact ⟨_, .number hbase hdigits hall⟩

/-! ### One step -/

theorem dropGroup?_eq_some_iff : dropGroup? cs = some base ↔
    ∃ front body, '(' ∉ body ∧ cs = front ++ '(' :: (body ++ [')']) ∧ base = trimEnd front := by
  constructor
  · intro h
    unfold dropGroup? at h
    split at h
    · next back hreverse =>
        split at h
        · next c before hdrop =>
            cases h
            obtain ⟨hbody, hsplit⟩ := Text.append_of_dropWhile hdrop
            refine ⟨before.reverse, (back.takeWhile (· != '(')).reverse, by simpa using hbody, ?_, rfl⟩
            have hcs := congrArg List.reverse hreverse
            rw [List.reverse_reverse, List.reverse_cons, ← congrArg List.reverse hsplit] at hcs
            simpa using hcs
        · cases h
    · cases h
  · rintro ⟨front, body, hbody, rfl, rfl⟩
    have hback : (front ++ '(' :: (body ++ [')'])).reverse = ')' :: (front ++ '(' :: body).reverse := by
      simp
    simp only [dropGroup?, hback, Text.dropWhile_reverse_append hbody, List.reverse_reverse]

/-- A text that ends in a number does not end in a group. -/
theorem dropGroup?_number (hdigits : digits ≠ []) (hall : ∀ d ∈ digits, d.isDigit = true) :
    dropGroup? (base ++ '_' :: digits) = none := by
  refine Option.eq_none_iff_forall_ne_some.mpr fun left hleft => ?_
  obtain ⟨front, body, -, hgroup, -⟩ := dropGroup?_eq_some_iff.mp hleft
  obtain ⟨before, c, hc, heq⟩ := exists_concat_of_digits base hdigits hall
  rw [heq, ← List.cons_append, ← List.append_assoc] at hgroup
  obtain rfl : c = ')' := by simpa using (List.append_inj' hgroup rfl).2
  exact absurd hc (by decide)

/-- **The step towards the base drops one ending**, and it leaves the text alone only if there is
none. -/
theorem dropVariant?_eq_some_iff : dropVariant? cs = some base ↔ Drops cs base := by
  rw [dropVariant?, Option.or_eq_some_iff]
  constructor
  · rintro (hgroup | ⟨-, hnumber⟩)
    · obtain ⟨front, body, hbody, rfl, rfl⟩ := dropGroup?_eq_some_iff.mp hgroup
      exact .group hbody
    · obtain ⟨hbase, digits, hdigits, hall, rfl⟩ := Alpha.dropNumber?_eq_some_iff.mp hnumber
      exact .number hbase hdigits hall
  · intro hdrops
    cases hdrops with
    | group hbody => exact .inl (dropGroup?_eq_some_iff.mpr ⟨_, _, hbody, rfl, rfl⟩)
    | number hbase hdigits hall =>
        exact .inr ⟨dropGroup?_number hdigits hall,
          Alpha.dropNumber?_eq_some_iff.mpr ⟨hbase, _, hdigits, hall, rfl⟩⟩

theorem dropVariant?_eq_none_iff : dropVariant? cs = none ↔ ¬EndsInGroup cs ∧ ¬EndsInNumber cs := by
  rw [← not_or, ← exists_drops_iff, not_exists, Option.eq_none_iff_forall_ne_some]
  exact forall_congr' fun next => not_congr dropVariant?_eq_some_iff

theorem Drops.isPrefix (h : Drops cs base) : base <+: cs := by
  cases h with
  | group => exact (Text.trimEnd_prefix _).trans (List.prefix_append _ _)
  | number => exact List.prefix_append _ _

/-- No text loses endings forever. -/
theorem wellFounded_drops : WellFounded fun next cs => Drops cs next :=
  Subrelation.wf (fun hdrops => length_of_dropVariant? (dropVariant?_eq_some_iff.mpr hdrops))
    (measure List.length).wf

/-! ### The base -/

theorem dropVariants_of_drops (h : Drops cs base) : dropVariants cs = dropVariants base := by
  have hstep := dropVariant?_eq_some_iff.mpr h
  rw [dropVariants]
  split
  · next other hother =>
      cases hother.symm.trans hstep
      rfl
  · next hnone => cases hnone.symm.trans hstep

theorem dropVariants_of_bare (hgroup : ¬EndsInGroup cs) (hnumber : ¬EndsInNumber cs) :
    dropVariants cs = cs := by
  have hstep := dropVariant?_eq_none_iff.mpr ⟨hgroup, hnumber⟩
  rw [dropVariants]
  split
  · next other hother => cases hother.symm.trans hstep
  · rfl

/-- The search for the base drops endings until there is none. -/
theorem drops_dropVariants (cs : List Char) : ReflTransGen Drops cs (dropVariants cs) ∧
    ¬EndsInGroup (dropVariants cs) ∧ ¬EndsInNumber (dropVariants cs) := by
  induction cs using wellFounded_drops.induction with
  | _ cs ih =>
      by_cases hends : ∃ next, Drops cs next
      · obtain ⟨next, hdrops⟩ := hends
        obtain ⟨hreach, hbare⟩ := ih next hdrops
        rw [dropVariants_of_drops hdrops]
        exact ⟨.head hdrops hreach, hbare⟩
      · rw [exists_drops_iff, not_or] at hends
        rw [dropVariants_of_bare hends.1 hends.2]
        exact ⟨.refl, hends⟩

theorem dropVariants_of_reaches (h : ReflTransGen Drops cs base) :
    dropVariants cs = dropVariants base := by
  induction h with
  | refl => rfl
  | tail _ hdrops ih => rw [ih, dropVariants_of_drops hdrops]

/-- A text with a blank at its end has no ending of a variant. -/
theorem dropVariants_of_not_isTrimmed (h : ¬IsTrimmed cs) : dropVariants cs = cs := by
  refine dropVariants_of_bare ?_ ?_
  · rintro ⟨front, body, rfl⟩
    exact h isTrimmed_group
  · rintro ⟨base, digits, -, hdigits, hall, rfl⟩
    exact h (isTrimmed_number hdigits hall)

theorem isPrefix_of_reaches (h : ReflTransGen Drops cs base) : base <+: cs := by
  induction h with
  | refl => exact List.prefix_rfl
  | tail _ hdrops ih => exact hdrops.isPrefix.trans ih

/-- No text with a blank before a number is reached on the way to the base. -/
def IsFlush (cs : List Char) : Prop :=
  ∀ base digits, base ≠ [] → digits ≠ [] → (∀ d ∈ digits, d.isDigit = true) →
    ReflTransGen Drops cs (base ++ '_' :: digits) → IsTrimmed base

/-- **The base ends in a blank exactly if one stands before a number that was dropped.** -/
theorem isTrimmed_dropVariants_iff (hcs : IsTrimmed cs) :
    IsTrimmed (dropVariants cs) ↔ IsFlush cs := by
  constructor
  · intro hbase base digits hne hdigits hall hreach
    by_contra hblank
    rw [dropVariants_of_reaches (hreach.tail (.number hne hdigits hall)),
      dropVariants_of_not_isTrimmed hblank] at hbase
    exact hblank hbase
  · intro hflush
    rcases (drops_dropVariants cs).1.cases_tail with heq | ⟨last, hreach, hdrops⟩
    · rwa [heq]
    · generalize dropVariants cs = left at hdrops ⊢
      cases hdrops with
      | group => exact Text.isTrimmed_trimEnd _
      | number hbase hdigits hall => exact hflush _ _ hbase hdigits hall hreach

theorem toList_baseStem (stem : String) : (baseStem stem).toList = dropVariants (trimEnd stem.toList) :=
  String.toList_ofList

/-- **A stem is its own base if it ends in nothing that is dropped.** -/
theorem baseStem_eq_self_iff : baseStem stem = stem ↔
    IsTrimmed stem.toList ∧ ¬EndsInGroup stem.toList ∧ ¬EndsInNumber stem.toList := by
  rw [← String.toList_inj, toList_baseStem]
  constructor
  · intro heq
    -- nothing is longer than what it was taken from
    have hbase := (isPrefix_of_reaches (drops_dropVariants (trimEnd stem.toList)).1).length_le
    rw [heq] at hbase
    have htrim := (Text.trimEnd_prefix stem.toList).eq_of_length_le hbase
    rw [htrim] at heq
    have hbare := (drops_dropVariants stem.toList).2
    rw [heq] at hbare
    exact ⟨Text.trimEnd_eq_self_iff.mp htrim, hbare⟩
  · rintro ⟨htrim, hgroup, hnumber⟩
    rw [Text.trimEnd_eq_self_iff.mpr htrim, dropVariants_of_bare hgroup hnumber]

/-- No blank stands before an underscore. -/
def IsTight (cs : List Char) : Prop :=
  ∀ c, [c, '_'] <:+: cs → isBlank c = false

theorem IsTight.isFlush (h : IsTight cs) : IsFlush cs := by
  intro base digits hbase _ _ hreach
  obtain ⟨front, c, rfl⟩ := (List.eq_nil_or_concat' base).resolve_left hbase
  have hstem := (isPrefix_of_reaches hreach).isInfix
  refine Text.isTrimmed_concat.mpr (h c (.trans ⟨front, digits, ?_⟩ hstem))
  simp

/-- **The search for the base ends, with a text that has no group and no number at its end.**  That
text is its own base if it does not end in a blank, which is so if no number that was dropped has a
blank before it. -/
theorem baseStem_exact (stem : String) :
    WellFounded (fun next cs => Drops cs next) ∧
      ReflTransGen Drops (trimEnd stem.toList) (baseStem stem).toList ∧
      ¬EndsInGroup (baseStem stem).toList ∧ ¬EndsInNumber (baseStem stem).toList ∧
      (IsTrimmed (baseStem stem).toList ↔ IsFlush (trimEnd stem.toList)) ∧
      (baseStem (baseStem stem) = baseStem stem ↔ IsFlush (trimEnd stem.toList)) ∧
      (IsTight stem.toList → IsFlush (trimEnd stem.toList)) := by
  obtain ⟨hreach, hgroup, hnumber⟩ := drops_dropVariants (trimEnd stem.toList)
  have hflush := isTrimmed_dropVariants_iff (Text.isTrimmed_trimEnd stem.toList)
  rw [← toList_baseStem] at hreach hgroup hnumber hflush
  refine ⟨wellFounded_drops, hreach, hgroup, hnumber, hflush, ?_, fun htight => ?_⟩
  · rw [baseStem_eq_self_iff, ← hflush]
    exact and_iff_left ⟨hgroup, hnumber⟩
  · exact IsTight.isFlush fun c hc => htight c (hc.trans (Text.trimEnd_prefix _).isInfix)

/-- A blank before a number stays at the end of the base, and goes the second time. -/
theorem exists_baseStem_blank : ∃ stem, ¬IsTrimmed (baseStem stem).toList ∧
    baseStem (baseStem stem) ≠ baseStem stem := by
  have hblank : ¬IsTrimmed "pic ".toList := by decide
  have hfirst : baseStem "pic _2" = "pic " := by
    have hdrops : Drops "pic _2".toList "pic ".toList :=
      dropVariant?_eq_some_iff.mp (by decide)
    rw [← String.toList_inj, toList_baseStem, Text.trimEnd_eq_self_iff.mpr (by decide),
      dropVariants_of_drops hdrops, dropVariants_of_not_isTrimmed hblank]
  refine ⟨"pic _2", ?_, ?_⟩
  · rwa [hfirst]
  · rw [hfirst, ne_eq, baseStem_eq_self_iff]
    exact fun h => hblank h.1

/-! ### Keys of variants -/

/-- A stem differs from another one in endings of variants, and blanks behind them, alone. -/
inductive IsVariant (stem : String) : String → Prop
  | self : IsVariant stem stem
  | blank {variant : String} {c : Char} : IsVariant stem variant → isBlank c = true →
      IsVariant stem (variant.push c)
  | group {variant inside : String} : IsVariant stem variant → '(' ∉ inside.toList →
      IsVariant stem (variant ++ "(" ++ inside ++ ")")
  | number {variant digits : String} : IsVariant stem variant → variant ≠ "" →
      IsTrimmed variant.toList → digits ≠ "" → (∀ d ∈ digits.toList, d.isDigit = true) →
      IsVariant stem (variant ++ "_" ++ digits)

theorem baseStem_push (h : isBlank c = true) : baseStem (stem.push c) = baseStem stem := by
  rw [← String.toList_inj, toList_baseStem, toList_baseStem, String.toList_push,
    Text.trimEnd_concat_of_isBlank h]

theorem baseStem_group {inside : String} (h : '(' ∉ inside.toList) :
    baseStem (stem ++ "(" ++ inside ++ ")") = baseStem stem := by
  have htext : (stem ++ "(" ++ inside ++ ")").toList =
      stem.toList ++ '(' :: (inside.toList ++ [')']) := by
    simp
  rw [← String.toList_inj, toList_baseStem, toList_baseStem, htext,
    Text.trimEnd_eq_self_iff.mpr isTrimmed_group, dropVariants_of_drops (.group h)]

theorem baseStem_number {digits : String} (hstem : stem ≠ "") (htrim : IsTrimmed stem.toList)
    (hdigits : digits ≠ "") (hall : ∀ d ∈ digits.toList, d.isDigit = true) :
    baseStem (stem ++ "_" ++ digits) = baseStem stem := by
  have htext : (stem ++ "_" ++ digits).toList = stem.toList ++ '_' :: digits.toList := by
    simp
  have hstem' : stem.toList ≠ [] := mt String.toList_eq_nil_iff.mp hstem
  have hdigits' : digits.toList ≠ [] := mt String.toList_eq_nil_iff.mp hdigits
  rw [← String.toList_inj, toList_baseStem, toList_baseStem, htext,
    Text.trimEnd_eq_self_iff.mpr (isTrimmed_number hdigits' hall),
    dropVariants_of_drops (.number hstem' hdigits' hall), Text.trimEnd_eq_self_iff.mpr htrim]

/-- Variants of an output have one base. -/
theorem IsVariant.baseStem_eq (h : IsVariant stem variant) : baseStem variant = baseStem stem := by
  induction h with
  | self => rfl
  | blank _ hc ih => rw [baseStem_push hc, ih]
  | group _ hinside ih => rw [baseStem_group hinside, ih]
  | number _ hne htrim hdigits hall ih => rw [baseStem_number hne htrim hdigits hall, ih]

theorem stemKey_congr (h : baseStem variant = baseStem stem) : stemKey variant = stemKey stem := by
  rw [stemKey, stemKey, h]

/-- **Variants of an output have one key**: a group in parentheses changes neither the text of the key
nor whether it is that of a damaged picture, and neither does a number after a stem without a blank at
its end, or any number of such endings in any order. -/
theorem stemKey_exact :
    (∀ stem inside : String, '(' ∉ inside.toList →
        stemKey (stem ++ "(" ++ inside ++ ")") = stemKey stem) ∧
      (∀ stem digits : String, stem ≠ "" → IsTrimmed stem.toList → digits ≠ "" →
        (∀ d ∈ digits.toList, d.isDigit = true) → stemKey (stem ++ "_" ++ digits) = stemKey stem) ∧
      ∀ stem variant, IsVariant stem variant → stemKey variant = stemKey stem :=
  ⟨fun _ _ hinside => stemKey_congr (baseStem_group hinside),
    fun _ _ hstem htrim hdigits hall => stemKey_congr (baseStem_number hstem htrim hdigits hall),
    fun _ _ hvariant => stemKey_congr hvariant.baseStem_eq⟩

/-- A damaged picture with a group and a number has the key of the damaged picture. -/
theorem stemKey_exact_damaged : stemKey "pic_M4A1_D (1)_3" = ⟨"pic_m4a1", true⟩ := by
  have hblank : IsVariant "pic_M4A1_D" ("pic_M4A1_D".push ' ') := .blank .self (by decide)
  have hgroup : IsVariant "pic_M4A1_D" ("pic_M4A1_D " ++ "(" ++ "1" ++ ")") :=
    .group hblank (by decide)
  have hvariant : IsVariant "pic_M4A1_D" ("pic_M4A1_D (1)" ++ "_" ++ "3") :=
    .number hgroup (by decide) (by decide) (by decide) (List.all_eq_true.mp (by decide))
  have hbase : baseStem "pic_M4A1_D" = "pic_M4A1_D" :=
    baseStem_eq_self_iff.mpr ⟨by decide, dropVariant?_eq_none_iff.mp (by decide)⟩
  refine (stemKey_exact.2.2 _ _ hvariant).trans ?_
  rw [stemKey, hbase]
  decide +kernel

end Reconciliation

end CharacterArt
