import CharacterArt.Alpha.Name
import CharacterArt.Proofs.Text.LowerForms
import Mathlib.Data.List.TakeWhile

/-!
# Names of masks in lowercase

The lowercase name of a mask is that of its image and the marker.  It is compared in lowercase once
more, which changes nothing, and no image has the name of its own mask, with or without a number.

## Main Definitions

* `IsSettled` — characters that only a single letter has for its lowercase form

## Main Results

* `colorNameFor_eq_some_iff` — the names of masks, and of their images
* `isMaskName_of_lowercase` — a name with the lowercase form of a mask name is one
* `stripNumber_eq_some_iff` — the names that end in a number
* `lowercase_append_number` — a number is looked up as it is
* `lowercase_maskNameFor` — the name of a mask is looked up as it is
* `maskNameFor_ne_lowercase`, `maskNameFor_ne_of_stripNumber` — an image is no mask of its own
-/

namespace CharacterArt.Alpha

open Text (lowercase lowerChar lowerFrom IsForm IsLower)

variable {name base : String} {cs before xs tail : List Char} {m c : Char}

/-! ### The marker -/

theorem isLower_of_mem_marker (h : m ∈ marker) : IsLower m := by
  have hall : ∀ m ∈ marker, m.toNat < 0x80 ∧ m.toLower = m := Text.forall_mem_of_all (by decide)
  exact Text.isLower_of_toLower_eq (hall m h).1 (hall m h).2

theorem lowercase_append_marker (s : String) :
    lowercase (s ++ String.ofList marker) = lowercase s ++ String.ofList marker :=
  Text.lowercase_append (by decide) (by decide) (fun _ => isLower_of_mem_marker) s

/-- **The lowercase name of a mask is looked up as it is.** -/
theorem lowercase_maskNameFor (name : String) :
    lowercase (maskNameFor name) = lowercase name ++ String.ofList marker := by
  rw [maskNameFor, lowercase_append_marker, Text.lowercase_lowercase]

/-- **The image of a mask has the name that stands before the marker**, in whichever letter case that
is, if there is one. -/
theorem colorNameFor_eq_some_iff : colorNameFor name = some base ↔ base ≠ "" ∧
    ∃ tail, tail.map Char.toLower = marker ∧ name.toList = base.toList ++ tail := by
  unfold colorNameFor
  dsimp only
  rw [Option.ite_none_right_eq_some, Option.some.injEq]
  constructor
  · rintro ⟨⟨hlong, htail⟩, rfl⟩
    rw [String.toList_ofList]
    refine ⟨fun hnil => ?_, _, htail, (List.take_append_drop _ name.toList).symm⟩
    rw [String.ofList_eq_empty_iff, ← List.length_eq_zero_iff, List.length_take] at hnil
    omega
  · rintro ⟨hbase, tail, htail, hname⟩
    have hlength : tail.length = marker.length := by
      rw [← htail, List.length_map]
    rw [hname, List.length_append, ← hlength, Nat.add_sub_cancel, List.drop_left, List.take_left]
    have hpos := List.length_pos_iff.mpr (mt String.toList_eq_nil_iff.mp hbase)
    exact ⟨⟨Nat.lt_add_of_pos_left hpos, htail⟩, String.ofList_toList⟩

/-- A name is that of a mask if something stands before the marker. -/
theorem isMaskName_iff : isMaskName name = true ↔
    ∃ front back, front ≠ [] ∧ back.map Char.toLower = marker ∧ name.toList = front ++ back := by
  rw [isMaskName, Option.isSome_iff_exists]
  constructor
  · rintro ⟨base, hbase⟩
    obtain ⟨hne, tail, htail, hname⟩ := colorNameFor_eq_some_iff.mp hbase
    exact ⟨base.toList, tail, mt String.toList_eq_nil_iff.mp hne, htail, hname⟩
  · rintro ⟨front, back, hfront, hback, hname⟩
    refine ⟨String.ofList front, colorNameFor_eq_some_iff.mpr ⟨?_, back, hback, ?_⟩⟩
    · rwa [ne_eq, String.ofList_eq_empty_iff]
    · rw [hname, String.toList_ofList]

/-- The letters of the marker are lowercase forms of their ASCII letters alone. -/
theorem toLower_eq_of_mem_lowerChar (hm : m ∈ marker) (h : m ∈ lowerChar c) :
    lowerChar c = [m] ∧ c.toLower = m := by
  unfold lowerChar at h ⊢
  split at h
  · next hascii =>
      rw [if_pos hascii, List.mem_singleton.mp h]
      exact ⟨rfl, rfl⟩
  · next hascii =>
      rw [if_neg hascii]
      split at h
      · have hnone : ∀ m ∈ marker, m ∉ ['i', '\u0307'] := Text.forall_mem_of_all (by decide)
        exact absurd h (hnone m hm)
      · split at h
        · next s hfound =>
            -- no run of the table leads to these letters
            have hrows : ∀ s ∈ Text.shifts, marker.all (fun m => decide
                ((m.toNat : Int) < s.first + s.distance ∨ (s.last : Int) + s.distance < m.toNat)) =
                  true := by
              decide +kernel
            have hrow := Text.forall_mem_of_all (hrows s (List.mem_of_find?_eq_some hfound)) m hm
            have hcovers := List.find?_some hfound
            simp only [Text.Shift.covers, Bool.and_eq_true, decide_eq_true_eq] at hcovers
            have hform := Text.toNat_ofNat_eq_or ((c.toNat : Int) + s.distance).toNat
            rw [← List.mem_singleton.mp h] at hform
            have hpositive : ∀ m ∈ marker, 0 < m.toNat := Text.forall_mem_of_all (by decide)
            have := hpositive m hm
            omega
        · obtain rfl := List.mem_singleton.mp h
          have hsmall : ∀ m ∈ marker, m.toNat < 0x80 := Text.forall_mem_of_all (by decide)
          exact absurd (hsmall m hm) hascii

/-- A character that stands in a lowercase form only as that of a single letter. -/
def IsSettled (m : Char) : Prop :=
  ∀ {c form}, IsForm c form → m ∈ form → form = [m] ∧ c.toLower = m

theorem isSettled_of_mem_marker (hm : m ∈ marker) : IsSettled m := by
  intro c form h hform
  cases h with
  | medial => rw [List.mem_singleton.mp hform] at hm; exact absurd hm (by decide)
  | final => rw [List.mem_singleton.mp hform] at hm; exact absurd hm (by decide)
  | plain hc => exact toLower_eq_of_mem_lowerChar hm hform

/-- Settled characters at the end of a lowercase form come from letters at the end of the text. -/
theorem exists_of_lowerFrom (htail : ∀ m ∈ tail, IsSettled m)
    (h : lowerFrom before cs = xs ++ tail) :
    ∃ front back, cs = front ++ back ∧ back.map Char.toLower = tail ∧ (xs = [] ↔ front = []) := by
  induction cs generalizing before xs tail with
  | nil =>
      obtain ⟨rfl, rfl⟩ := List.append_eq_nil_iff.mp h.symm
      exact ⟨[], [], rfl, rfl, Iff.rfl⟩
  | cons c rest ih =>
      obtain ⟨form, hform, heq⟩ := Text.exists_isForm before c rest
      rw [heq, List.append_eq_append_iff] at h
      rcases h with ⟨ys, rfl, hrest⟩ | ⟨ys, rfl, rfl⟩
      · obtain ⟨front, back, rfl, hback, -⟩ := ih htail hrest
        refine ⟨c :: front, back, rfl, hback, iff_of_false ?_ (List.cons_ne_nil c front)⟩
        exact List.append_ne_nil_of_left_ne_nil hform.ne_nil ys
      · obtain ⟨front, back, hsplit, hback, hfront⟩ :=
          ih (fun m hm => htail m (List.mem_append_right ys hm)) (List.nil_append _).symm
        obtain rfl := hfront.mp rfl
        obtain rfl : rest = back := hsplit
        cases ys with
        | nil =>
            rw [List.append_nil] at hform
            exact ⟨[c], rest, rfl, hback, iff_of_false hform.ne_nil (List.cons_ne_nil c [])⟩
        | cons m ys =>
            -- the form of one character holds a settled one, so it is nothing else
            obtain ⟨hsame, hc⟩ := htail m List.mem_cons_self hform
              (List.mem_append_right xs List.mem_cons_self)
            rcases List.append_eq_singleton_iff.mp hsame with ⟨rfl, hone⟩ | ⟨-, hnone⟩
            · refine ⟨[], c :: rest, rfl, ?_, Iff.rfl⟩
              rw [List.map_cons, hc, hback, hone]
              rfl
            · exact absurd hnone (List.cons_ne_nil m ys)

/-- **A name with the lowercase form of a mask name is one**, if the image has a name. -/
theorem isMaskName_of_lowercase (hbase : base ≠ "")
    (h : lowercase name = lowercase base ++ String.ofList marker) : isMaskName name = true := by
  rw [← String.toList_inj, String.toList_append, String.toList_ofList, lowercase,
    String.toList_ofList] at h
  obtain ⟨front, back, hname, hback, hfront⟩ := exists_of_lowerFrom (fun _ => isSettled_of_mem_marker) h
  refine isMaskName_iff.mpr ⟨front, back, fun hnil => hbase ?_, hback, hname⟩
  rw [← String.toList_eq_nil_iff, ← Text.lowerFrom_eq_nil_iff, ← String.toList_ofList (l := lowerFrom _ _)]
  exact hfront.mpr hnil

/-! ### Numbers -/

/-- Characters end in a number if digits stand after their last underscore, and something before. -/
theorem dropNumber?_eq_some_iff : dropNumber? cs = some before ↔ before ≠ [] ∧
    ∃ digits, digits ≠ [] ∧ (∀ d ∈ digits, d.isDigit = true) ∧ cs = before ++ '_' :: digits := by
  constructor
  · intro h
    unfold dropNumber? at h
    split at h
    · next d digits c front hdigits hfront =>
        cases h
        refine ⟨by simp, (d :: digits).reverse, by simp, fun x hx => ?_, ?_⟩
        · rw [← hdigits, List.mem_reverse] at hx
          exact List.mem_takeWhile_imp hx
        · have hsplit := List.takeWhile_append_dropWhile (p := Char.isDigit) (l := cs.reverse)
          rw [hdigits, hfront] at hsplit
          rw [← List.reverse_reverse cs, ← hsplit]
          simp
    · cases h
  · rintro ⟨hbefore, digits, hdigits, hall, rfl⟩
    have hall' : ∀ d ∈ digits.reverse, d.isDigit = true := fun d hd => hall d (List.mem_reverse.mp hd)
    have hback : (before ++ '_' :: digits).reverse = digits.reverse ++ '_' :: before.reverse := by
      simp
    obtain ⟨d, ds, hds⟩ := List.exists_cons_of_ne_nil (mt List.reverse_eq_nil_iff.mp hdigits)
    obtain ⟨c, front, hfront⟩ := List.exists_cons_of_ne_nil (mt List.reverse_eq_nil_iff.mp hbefore)
    rw [dropNumber?, hback, List.takeWhile_append_of_pos hall', List.dropWhile_append_of_pos hall',
      List.takeWhile_cons_of_neg (by decide), List.dropWhile_cons_of_neg (by decide),
      List.append_nil, hds, hfront]
    show some (c :: front).reverse = _
    rw [← hfront, List.reverse_reverse]

/-- **A name ends in a number if digits stand after its last `_`, and something before.** -/
theorem stripNumber_eq_some_iff : stripNumber name = some base ↔ base ≠ "" ∧
    ∃ digits, digits ≠ [] ∧ (∀ d ∈ digits, d.isDigit = true) ∧
      name.toList = base.toList ++ '_' :: digits := by
  have hbase : stripNumber name = some base ↔ dropNumber? name.toList = some base.toList := by
    rw [stripNumber, Option.map_eq_some_iff]
    constructor
    · rintro ⟨cs, hcs, rfl⟩
      rw [hcs, String.toList_ofList]
    · exact fun h => ⟨_, h, String.ofList_toList⟩
  rw [hbase, dropNumber?_eq_some_iff, ne_eq, String.toList_eq_nil_iff]

theorem bounds_of_isDigit (h : c.isDigit = true) : 0x30 ≤ c.toNat ∧ c.toNat ≤ 0x39 := by
  simp only [Char.isDigit, Bool.and_eq_true, decide_eq_true_eq] at h
  exact ⟨UInt32.le_iff_toNat_le.mp h.1, UInt32.le_iff_toNat_le.mp h.2⟩

/-- The underscore and the digits of a number are marks. -/
theorem isMark_of_mem_number {digits : List Char} (hall : ∀ d ∈ digits, d.isDigit = true)
    (h : c ∈ '_' :: digits) : Text.IsMark c := by
  rcases List.mem_cons.mp h with rfl | hdigit
  · decide
  · obtain ⟨hleast, hgreatest⟩ := bounds_of_isDigit (hall c hdigit)
    exact ⟨by omega, by omega⟩

theorem isLower_of_mem_number {digits : List Char} (hall : ∀ d ∈ digits, d.isDigit = true)
    (h : c ∈ '_' :: digits) : IsLower c := by
  rcases List.mem_cons.mp h with rfl | hdigit
  · exact isLower_of_mem_marker (by decide)
  · obtain ⟨hleast, hgreatest⟩ := bounds_of_isDigit (hall c hdigit)
    refine Text.isLower_of_toLower_eq (by omega) ?_
    unfold Char.toLower
    split
    · next hupper =>
        have hletter : 0x41 ≤ c.toNat := UInt32.le_iff_toNat_le.mp hupper.1
        omega
    · rfl

/-- **A number at the end of a name stays as it is when the name is lowercased.** -/
theorem lowercase_append_number {digits : List Char} (hall : ∀ d ∈ digits, d.isDigit = true)
    (base : String) : lowercase (base ++ String.ofList ('_' :: digits)) =
      lowercase base ++ String.ofList ('_' :: digits) :=
  Text.lowercase_append (by decide) (by decide) (fun _ => isLower_of_mem_number hall) base

/-! ### Images and their masks -/

/-- An image has another name than its mask. -/
theorem maskNameFor_ne_lowercase (name : String) : maskNameFor name ≠ lowercase name := by
  rw [maskNameFor, ne_eq, ← String.toList_inj, String.toList_append, String.toList_ofList]
  intro heq
  have hlength := congrArg List.length heq
  rw [List.length_append] at hlength
  exact absurd hlength (by simp [marker])

/-- An image with a number has another name than the mask of the name without it. -/
theorem maskNameFor_ne_of_stripNumber (h : stripNumber name = some base) :
    maskNameFor base ≠ lowercase name := by
  obtain ⟨-, digits, hdigits, hall, hname⟩ := stripNumber_eq_some_iff.mp h
  have hform : lowercase name = lowercase base ++ String.ofList ('_' :: digits) := by
    rw [← lowercase_append_number hall base]
    exact congrArg lowercase (String.toList_inj.mp (by simpa using hname))
  rw [maskNameFor, hform]
  intro heq
  rw [← String.toList_inj] at heq
  simp only [String.toList_append, String.toList_ofList, List.append_cancel_left_eq] at heq
  have hfirst : digits = ['a', 'l', 'p', 'h', 'a'] := (List.cons.inj heq).2.symm
  exact absurd (hall 'a' (by simp [hfirst])) (by decide)

end CharacterArt.Alpha
