import CharacterArt.Index.Expression
import CharacterArt.Index.Lookup
import CharacterArt.Proofs.Alpha.Inverses

/-!
# The pattern for masks

A query for masks selects textures by a pattern, `%\_alpha` with a backslash as escape character, on
names in small ASCII letters.  The rules for masks look at the end of a name instead, and cut it at a
number of bytes.  Both say the same of a name without NUL characters, unless nothing stands before the
marker.

## Main Definitions

* `PatternPart`, `patternParts?` — the parts of a pattern with an escape character
* `PatternPart.Fits`, `FitsMaskPattern` — a text has the form of a pattern, and a name that of masks

## Main Results

* `isLike_iff_fits` — texts are compared with patterns that have no escape character in the same way
* `matchesMask_iff_fits` — the query selects by the pattern
* `isMaskName_iff_tail` — a name of a mask by its bytes
* `matchesMask_iff` — what the pattern selects
-/

namespace CharacterArt.Index

open Alpha (marker isMaskName)

/-! ### Patterns -/

/-- A part of a pattern for texts. -/
inductive PatternPart where
  /-- Any text. -/
  | anyText
  /-- Any character. -/
  | anyChar
  /-- A character, in either letter case if it is a Latin letter. -/
  | letter (c : Char)
  deriving DecidableEq

namespace PatternPart

/-- A character of a pattern that is not escaped. -/
def ofChar (c : Char) : PatternPart :=
  if c = '%' then anyText else if c = '_' then anyChar else letter c

/-- A text has the form of a pattern. -/
def Fits : List PatternPart → List Char → Prop
  | [], text => text = []
  | anyText :: parts, text => ∃ skipped rest, text = skipped ++ rest ∧ Fits parts rest
  | anyChar :: parts, text => ∃ c rest, text = c :: rest ∧ Fits parts rest
  | letter l :: parts, text => ∃ c rest, text = c :: rest ∧ l.toLower = c.toLower ∧ Fits parts rest

end PatternPart

/-- The parts of a pattern.  What stands behind the escape character stands for itself, and something
has to stand there. -/
def patternParts? (escape : Char) : List Char → Option (List PatternPart)
  | [] => some []
  | [c] => if c = escape then none else some [.ofChar c]
  | c :: d :: form =>
    if c = escape then (patternParts? escape form).map (.letter d :: ·)
    else (patternParts? escape (d :: form)).map (.ofChar c :: ·)

open PatternPart

variable {c d : Char} {form text letters : List Char} {parts : List PatternPart} {name : String}

/-- Any text, and then a pattern, at the front of a text or later. -/
theorem fits_anyText_cons : Fits (anyText :: parts) (c :: text) ↔
    Fits parts (c :: text) ∨ Fits (anyText :: parts) text := by
  simp only [Fits]
  constructor
  · rintro ⟨skipped, rest, htext, hrest⟩
    cases skipped with
    | nil =>
        obtain rfl : c :: text = rest := htext
        exact .inl hrest
    | cons first skipped =>
        rw [List.cons_append, List.cons.injEq] at htext
        exact .inr ⟨skipped, rest, htext.2, hrest⟩
  · rintro (hnow | ⟨skipped, rest, rfl, hrest⟩)
    · exact ⟨[], c :: text, rfl, hnow⟩
    · exact ⟨c :: skipped, rest, rfl, hrest⟩

theorem eq_of_ofChar_eq_anyText (h : ofChar c = anyText) : c = '%' := by
  unfold ofChar at h
  split at h
  · assumption
  · split at h <;> cases h

/-- **Texts are compared with patterns without an escape character in the same way.** -/
theorem isLike_iff_fits : isLike form text = true ↔ Fits (form.map ofChar) text := by
  fun_induction isLike form text with
  | case1 text => simp [Fits]
  | case2 form ih =>
      rw [ih, List.map_cons, show ofChar '%' = anyText from rfl]
      simp [Fits]
  | case3 form c text ih ih' =>
      rw [Bool.or_eq_true, ih, ih', List.map_cons, show ofChar '%' = anyText from rfl,
        fits_anyText_cons]
  | case4 l form hany =>
      have hpart : ofChar l ≠ anyText := fun h => hany (eq_of_ofChar_eq_anyText h)
      cases hl : ofChar l with
      | anyText => exact absurd hl hpart
      | anyChar => simp [hl, Fits]
      | letter => simp [hl, Fits]
  | case5 form c text ih =>
      rw [ih, List.map_cons, show ofChar '_' = anyChar from rfl]
      simp [Fits]
  | case6 l form c text hany hone ih =>
      rw [List.map_cons, show ofChar l = letter l by rw [ofChar, if_neg hany, if_neg hone]]
      simp [Fits, ih]

/-- Letters fit a text of the same letters in any letter case. -/
theorem fits_letters : Fits (letters.map letter) text ↔
    text.map Char.toLower = letters.map Char.toLower := by
  induction letters generalizing text with
  | nil => simp [Fits]
  | cons l letters ih =>
      simp only [List.map_cons, Fits, ih]
      cases text with
      | nil => simp
      | cons c text => simp [eq_comm]

/-! ### The pattern for masks -/

/-- A name as the query for masks sees it: up to its first NUL character, in small ASCII letters. -/
def queriedName (name : String) : List Char :=
  (name.toList.takeWhile (· != '\x00')).map Char.toLower

/-- A name has the form of the pattern for masks. -/
def FitsMaskPattern (name : String) : Prop :=
  ∃ parts, patternParts? '\\' "%\\_alpha".toList = some parts ∧ Fits parts (queriedName name)

/-- **The query for masks selects by the pattern.** -/
theorem matchesMask_iff_fits (name : String) :
    Store.matchesMask (.text name) = true ↔ FitsMaskPattern name := by
  have hparts : patternParts? '\\' "%\\_alpha".toList = some (anyText :: marker.map letter) := by
    decide
  have hmarker : marker.map Char.toLower = marker := by decide
  have hname : (queriedName name).map Char.toLower = queriedName name := by
    rw [queriedName, List.map_map]
    exact List.map_congr_left fun c _ => Text.toLower_toLower c
  rw [Store.matchesMask, List.isSuffixOf_iff_suffix]
  simp only [FitsMaskPattern, hparts, Option.some.injEq, exists_eq_left', Fits, fits_letters, hmarker]
  constructor
  · rintro ⟨skipped, hskipped⟩
    exact ⟨skipped, marker, hskipped.symm, hmarker⟩
  · rintro ⟨skipped, rest, hsplit, hrest⟩
    rw [hsplit, List.map_append] at hname
    rw [← hrest, (List.append_inj' hname (List.length_map _)).2]
    exact ⟨skipped, hsplit.symm⟩

/-! ### Names by their bytes -/

/-- **A name of a mask by its bytes.**  The last bytes of the name, as many as those of the marker, are
whole characters and spell the marker in some letter case, and there are more bytes. -/
theorem isMaskName_iff_tail : isMaskName name = true ↔
    marker.length < name.utf8ByteSize ∧ ∃ front tail, name = front ++ tail ∧
      tail.utf8ByteSize = marker.length ∧ tail.toList.map Char.toLower = marker := by
  constructor
  · intro hmask
    obtain ⟨color, hcolor⟩ := Option.isSome_iff_exists.mp hmask
    obtain ⟨hne, tail, htail, rfl⟩ := Alpha.colorNameFor_eq_some_iff_isMarker.mp hcolor
    refine ⟨?_, color, tail, rfl, htail.utf8ByteSize_eq, htail⟩
    have hpos : color.utf8ByteSize ≠ 0 := mt String.utf8ByteSize_eq_zero_iff.mp hne
    rw [String.utf8ByteSize_append, htail.utf8ByteSize_eq]
    omega
  · rintro ⟨hlong, front, tail, rfl, hsize, htail⟩
    refine (Alpha.isMaskName_append_iff hsize).mpr ⟨fun hfront => ?_, htail⟩
    rw [String.utf8ByteSize_append, hsize, hfront] at hlong
    exact absurd hlong (by decide)

/-- **What the pattern selects**: names of masks, and the marker itself. -/
theorem matchesMask_iff (hnul : '\x00' ∉ name.toList) : Store.matchesMask (.text name) = true ↔
    isMaskName name = true ∨ name.toList.map Char.toLower = marker := by
  have hwhole : name.toList.takeWhile (· != '\x00') = name.toList := by
    rw [List.takeWhile_eq_self_iff]
    intro c hc
    simpa using ne_of_mem_of_not_mem hc hnul
  rw [Store.matchesMask, List.isSuffixOf_iff_suffix, hwhole, Alpha.isMaskName_iff]
  constructor
  · rintro ⟨skipped, hskipped⟩
    obtain ⟨front, back, hname, -, hback⟩ := List.map_eq_append_iff.mp hskipped.symm
    cases front with
    | nil =>
        rw [List.nil_append] at hname
        exact .inr (hname ▸ hback)
    | cons c front => exact .inl ⟨c :: front, back, List.cons_ne_nil c front, hback, hname⟩
  · rintro (⟨front, back, -, hback, hname⟩ | hbare)
    · exact ⟨front.map Char.toLower, by rw [hname, List.map_append, hback]⟩
    · exact ⟨[], hbare.symm⟩

/-- The marker itself is no name of a mask. -/
theorem isMaskName_of_bare (h : name.toList.map Char.toLower = marker) : isMaskName name = false := by
  have hmarker : Alpha.IsMarker name := h
  rw [Bool.eq_false_iff, ne_eq, isMaskName_iff_tail, hmarker.utf8ByteSize_eq]
  exact fun hlong => Nat.lt_irrefl _ hlong.1

end CharacterArt.Index
