import CharacterArt.Proofs.Disk.Places
import CharacterArt.Text.Lowercase

/-!
# Names in lowercase

The lowercase form of a text holds no slash and no dot that the text does not hold, and no other mark
or digit either.  So the lowercase form of a name is a name, and not a path of several steps.

## Main Definitions

* `Text.IsMark` — the ASCII characters before the small letters, among them slash, dot and digits

## Main Results

* `Text.mem_of_mem_lowerFrom` — marks come from the text
* `Path.IsName.lowercase` — the lowercase form of a name
-/

namespace CharacterArt

namespace Text

variable {c mark : Char} {before cs : List Char}

theorem lowerChar_ne_nil (c : Char) : lowerChar c ≠ [] := by
  unfold lowerChar
  split
  · exact List.cons_ne_nil _ _
  · split
    · exact List.cons_ne_nil _ _
    · split <;> exact List.cons_ne_nil _ _

/-- The ASCII characters before the small letters, but for the one of code zero. -/
def IsMark (c : Char) : Prop :=
  0 < c.toNat ∧ c.toNat ≤ 0x5F

instance (c : Char) : Decidable (IsMark c) :=
  inferInstanceAs (Decidable (_ ∧ _))

/-- No character beyond ASCII has a mark as its lowercase form. -/
theorem lt_of_mem_shifts {s : Shift} (h : s ∈ shifts) : 0x5F < (s.first : Int) + s.distance := by
  have hall : ∀ s ∈ shifts, 0x5F < (s.first : Int) + s.distance := by decide +kernel
  exact hall s h

/-- A number that is no code stands for the character of code zero. -/
theorem toNat_ofNat_eq_or (n : Nat) : (Char.ofNat n).toNat = n ∨ (Char.ofNat n).toNat = 0 := by
  by_cases hn : n.isValidChar
  · rw [Char.ofNat, dif_pos hn]
    exact .inl rfl
  · rw [Char.ofNat, dif_neg hn]
    exact .inr rfl

/-- The small letter of a capital has a greater code, and every other character is as it is. -/
theorem toLower_cases (c : Char) : (c.toLower = c ∧ (c.toNat < 0x41 ∨ 0x5A < c.toNat)) ∨
    0x41 ≤ c.toNat ∧ c.toNat ≤ 0x5A ∧ c.toLower.toNat = c.toNat + 0x20 := by
  unfold Char.toLower
  split
  · next hupper =>
      have hleast : 0x41 ≤ c.val.toNat := UInt32.le_iff_toNat_le.mp hupper.1
      have hgreatest : c.val.toNat ≤ 0x5A := UInt32.le_iff_toNat_le.mp hupper.2
      refine .inr ⟨hleast, hgreatest, ?_⟩
      show (c.val + 0x20).toNat = _
      rw [UInt32.toNat_add]
      exact Nat.mod_eq_of_lt (Nat.add_lt_add_right (Nat.lt_of_le_of_lt hgreatest (by decide)) _)
  · next hother =>
      refine .inl ⟨rfl, ?_⟩
      rcases not_and_or.mp hother with hlow | hhigh
      · exact .inl (UInt32.lt_iff_toNat_lt.mp (UInt32.not_le.mp hlow))
      · exact .inr (UInt32.lt_iff_toNat_lt.mp (UInt32.not_le.mp hhigh))

theorem toLower_toLower (c : Char) : c.toLower.toLower = c.toLower := by
  rcases toLower_cases c with ⟨hsame, -⟩ | ⟨hleast, -, hcode⟩
  · rw [hsame, hsame]
  · rcases toLower_cases c.toLower with ⟨hsame, -⟩ | ⟨-, hgreatest, -⟩
    · exact hsame
    · omega

/-- A mark is the small letter of no other character. -/
theorem eq_of_toLower_eq (hmark : IsMark mark) (h : c.toLower = mark) : c = mark := by
  obtain ⟨-, hsmall⟩ := hmark
  rcases toLower_cases c with ⟨hsame, -⟩ | ⟨hleast, -, hcode⟩
  · exact hsame.symm.trans h
  · rw [h] at hcode
    omega

/-- A mark is the lowercase form of itself alone. -/
theorem eq_of_mem_lowerChar (hmark : IsMark mark) (h : mark ∈ lowerChar c) : c = mark := by
  unfold lowerChar at h
  split at h
  · exact eq_of_toLower_eq hmark (List.mem_singleton.mp h).symm
  · split at h
    · have hnone : ∀ d ∈ ['i', '\u0307'], ¬ IsMark d :=
        List.forall_mem_cons.mpr ⟨by decide, List.forall_mem_singleton.mpr (by decide)⟩
      exact absurd hmark (hnone mark h)
    · split at h
      · next s hs =>
          -- the code of the lowercase form is too great for a mark, or it is none at all
          have hfound := List.find?_some hs
          have hlt := lt_of_mem_shifts (List.mem_of_find?_eq_some hs)
          simp only [Shift.covers, Bool.and_eq_true, decide_eq_true_eq] at hfound
          have htoNat := toNat_ofNat_eq_or ((c.toNat : Int) + s.distance).toNat
          rw [← List.mem_singleton.mp h] at htoNat
          obtain ⟨hpositive, hsmall⟩ := hmark
          omega
      · exact (List.mem_singleton.mp h).symm

/-- **Marks of a lowercase form come from the text.** -/
theorem mem_of_mem_lowerFrom (hmark : IsMark mark) (h : mark ∈ lowerFrom before cs) :
    mark ∈ cs := by
  induction cs generalizing before with
  | nil => exact h
  | cons c rest ih =>
      rw [lowerFrom, List.mem_append] at h
      rcases h with h | h
      · split at h
        · -- the forms of the sigma are no marks
          split at h <;> (rw [List.mem_singleton.mp h] at hmark; exact absurd hmark (by decide))
        · rw [eq_of_mem_lowerChar hmark h]
          exact List.mem_cons_self
      · exact List.mem_cons_of_mem c (ih h)

/-- A text whose lowercase form consists of dots is that form. -/
theorem lowerFrom_of_forall_dot (h : ∀ d ∈ lowerFrom before cs, d = '.') :
    lowerFrom before cs = cs := by
  induction cs generalizing before with
  | nil => rfl
  | cons c rest ih =>
      rw [lowerFrom] at h ⊢
      rw [ih fun d hd => h d (List.mem_append_right _ hd)]
      split at h
      · have hsigma := h _ (List.mem_append_left _ (List.mem_singleton_self _))
        split at hsigma <;> exact absurd hsigma (by decide)
      · next hsigma =>
          obtain ⟨d, hd⟩ := List.exists_mem_of_ne_nil _ (lowerChar_ne_nil c)
          obtain rfl := h d (List.mem_append_left _ hd)
          obtain rfl := eq_of_mem_lowerChar (by decide) hd
          rfl

end Text

/-- **The lowercase form of a name is a name.** -/
theorem Path.IsName.lowercase {name : String} (h : IsName name) : IsName (Text.lowercase name) := by
  have hsame : ∀ form : String, (∀ d ∈ form.toList, d = '.') → Text.lowercase name = form →
      name = form := by
    rintro form hdots rfl
    rw [Text.lowercase, String.toList_ofList] at hdots
    rw [Text.lowercase, Text.lowerFrom_of_forall_dot hdots, String.ofList_toList]
  refine ⟨fun heq => ?_, fun hslash => ?_, fun heq => ?_, fun heq => ?_⟩
  · exact h.ne_empty (hsame _ (by simp) heq)
  · rw [Text.lowercase, String.toList_ofList] at hslash
    exact h.no_slash (Text.mem_of_mem_lowerFrom (by decide) hslash)
  · exact h.ne_current (hsame _ (by simp) heq)
  · exact h.ne_parent (hsame _ (by simp) heq)

end CharacterArt
