import CharacterArt.Proofs.Text.Lowercase

/-!
# Lowercase forms

The lowercase form of a text is its own lowercase form.  Only a capital sigma looks at what stands
around it, and it looks no further than the first character that is neither a letter nor passed over.
So what stands behind such a character has no say in the form of the text before it.

## Main Definitions

* `Text.IsLower` — a character that is its own lowercase form wherever it stands
* `Text.IsForm` — a lowercase form of a character

## Main Results

* `Text.lowercase_lowercase` — lowercasing twice is lowercasing once
* `Text.lowercase_append` — a text before a mark is lowercased on its own
* `Text.exists_isForm` — a lowercase form starts with a form of the first character
-/

namespace CharacterArt.Text

variable {c d mark : Char} {before cs rest : List Char}

/-! ### Characters that stay -/

/-- A character is its own lowercase form wherever it stands. -/
def IsLower (d : Char) : Prop :=
  d ≠ 'Σ' ∧ lowerChar d = [d]

instance (d : Char) : Decidable (IsLower d) :=
  inferInstanceAs (Decidable (_ ∧ _))

/-- What holds of a list of characters is evaluated along the list, and not for all characters. -/
theorem forall_mem_of_all {p : Char → Prop} [DecidablePred p]
    (h : cs.all (fun c => decide (p c)) = true) : ∀ c ∈ cs, p c :=
  fun c hc => of_decide_eq_true (List.all_eq_true.mp h c hc)

/-- Every run of characters that lowercasing changes, the ASCII letters and the dotted capital I
among them. -/
def capitals : List Shift :=
  ⟨0x41, 0x5A, 1, 32⟩ :: ⟨0x130, 0x130, 1, 0⟩ :: shifts

/-- The forms of a run stand before another run, or after it, or between its characters. -/
def Shift.leadsPast (s t : Shift) : Bool :=
  decide ((s.last : Int) + s.distance < t.first) || decide ((t.last : Int) < s.first + s.distance) ||
    (t.step == 2 && (s.step == 2 || s.first == s.last) &&
      decide (((s.first : Int) + s.distance + t.first) % 2 = 1))

theorem Shift.not_covers_of_leadsPast {s t : Shift} {code form : Nat} (h : s.leadsPast t = true)
    (hcode : s.covers code = true) (hform : (form : Int) = code + s.distance) :
    t.covers form = false := by
  simp only [covers, Bool.and_eq_true, decide_eq_true_eq, beq_iff_eq] at hcode
  obtain ⟨⟨hfirst, hlast⟩, hstep⟩ := hcode
  rw [← Bool.not_eq_true]
  intro hcovers
  simp only [covers, Bool.and_eq_true, decide_eq_true_eq, beq_iff_eq] at hcovers
  obtain ⟨⟨hfirst', hlast'⟩, hstep'⟩ := hcovers
  simp only [leadsPast, Bool.or_eq_true, Bool.and_eq_true, decide_eq_true_eq, beq_iff_eq] at h
  rcases h with (hbefore | hafter) | ⟨⟨htwo, heven | hone⟩, hodd⟩
  · omega
  · omega
  · rw [heven] at hstep
    rw [htwo] at hstep'
    omega
  · rw [htwo] at hstep'
    omega

/-- Forms from one number to another one, or every second of them, are not in a run. -/
def Shift.isClearOf (t : Shift) (low high : Nat) (skips : Bool) : Bool :=
  Nat.blt high t.first || Nat.blt t.last low ||
    (Nat.beq t.step 2 && skips && Nat.beq ((low + t.first) % 2) 1)

theorem Shift.leadsPast_of_isClearOf {s t : Shift} (hpositive : 0 ≤ (s.first : Int) + s.distance)
    (h : t.isClearOf ((s.first : Int) + s.distance).toNat ((s.last : Int) + s.distance).toNat
      (s.step == 2 || s.first == s.last) = true) : s.leadsPast t = true := by
  simp only [isClearOf, Bool.or_eq_true, Bool.and_eq_true, Nat.blt_eq, Nat.beq_eq] at h
  simp only [leadsPast, Bool.or_eq_true, Bool.and_eq_true, decide_eq_true_eq, beq_iff_eq] at h ⊢
  rcases h with (hbefore | hafter) | ⟨⟨htwo, hskips⟩, hodd⟩
  · exact .inl (.inl (by omega))
  · exact .inl (.inr (by omega))
  · exact .inr ⟨⟨htwo, hskips⟩, by omega⟩

/-- What there is to see in the tables, in one evaluation: no run leads to capitals, the capital sigma
is in one of the runs, and so are the capitals of ASCII; the other forms are lowercase too. -/
theorem evaluated_tables :
    (shifts.all fun s => capitals.all fun t =>
      t.isClearOf ((s.first : Int) + s.distance).toNat ((s.last : Int) + s.distance).toNat
        (s.step == 2 || s.first == s.last)) = true ∧
    (∃ t ∈ shifts, t.covers 'Σ'.toNat = true) ∧
    (∀ n < 0x80, Shift.covers ⟨0x41, 0x5A, 1, 32⟩ n = false →
      (Char.ofNat n).toLower = Char.ofNat n) ∧
    (∀ n < 0x80, IsLower (Char.ofNat n).toLower) ∧
    ['\u0000', 'i', '\u0307', 'σ', 'ς'].all (fun c => decide (IsLower c)) = true := by
  decide +kernel

/-- No run leads to capitals. -/
theorem leadsPast_of_mem {s t : Shift} (hs : s ∈ shifts) (ht : t ∈ capitals) :
    s.leadsPast t = true := by
  have hpositive := lt_of_mem_shifts hs
  exact Shift.leadsPast_of_isClearOf (by omega)
    (List.all_eq_true.mp (List.all_eq_true.mp evaluated_tables.1 s hs) t ht)

/-- Some characters that are lowercase. -/
theorem isLower_of_mem_samples (h : c ∈ ['\u0000', 'i', '\u0307', 'σ', 'ς']) : IsLower c := by
  obtain ⟨-, -, -, -, hall⟩ := evaluated_tables
  exact forall_mem_of_all hall c h

/-- An ASCII character is lowercase if it is its own lowercase letter. -/
theorem isLower_of_toLower_eq (hascii : c.toNat < 0x80) (h : c.toLower = c) : IsLower c := by
  obtain ⟨-, -, -, hall, -⟩ := evaluated_tables
  have hlower := hall c.toNat hascii
  rwa [Char.ofNat_toNat, h] at hlower

/-- A character is lowercase if it is none of the capitals. -/
theorem isLower_of_forall_not_covers (h : ∀ t ∈ capitals, t.covers d.toNat = false) : IsLower d := by
  have hshifts : ∀ t ∈ shifts, t.covers d.toNat = false := fun t ht =>
    h t (List.mem_cons_of_mem _ (List.mem_cons_of_mem _ ht))
  constructor
  · rintro rfl
    obtain ⟨-, ⟨t, ht, hcovers⟩, -⟩ := evaluated_tables
    rw [hshifts t ht] at hcovers
    cases hcovers
  · unfold lowerChar
    split
    · next hascii =>
        obtain ⟨-, -, hall, -⟩ := evaluated_tables
        have hlower := hall d.toNat hascii (h _ List.mem_cons_self)
        rw [Char.ofNat_toNat] at hlower
        rw [hlower]
    · split
      · next hdotted =>
          subst hdotted
          have hnot := h ⟨0x130, 0x130, 1, 0⟩ (List.mem_cons_of_mem _ List.mem_cons_self)
          exact absurd hnot (by decide)
      · rw [List.find?_eq_none.mpr fun t ht => by rw [hshifts t ht]; exact Bool.false_ne_true]

/-- The forms of a run are lowercase. -/
theorem isLower_of_mem_shifts {s : Shift} (hs : s ∈ shifts) {code : Nat}
    (hcode : s.covers code = true) : IsLower (Char.ofNat ((code : Int) + s.distance).toNat) := by
  by_cases hvalid : ((code : Int) + s.distance).toNat.isValidChar
  · have htoNat : (Char.ofNat ((code : Int) + s.distance).toNat).toNat =
        ((code : Int) + s.distance).toNat := by
      rw [Char.ofNat, dif_pos hvalid]
      rfl
    refine isLower_of_forall_not_covers fun t ht => ?_
    rw [htoNat]
    refine Shift.not_covers_of_leadsPast (leadsPast_of_mem hs ht) hcode (Int.toNat_of_nonneg ?_)
    have hfirst := lt_of_mem_shifts hs
    simp only [Shift.covers, Bool.and_eq_true, decide_eq_true_eq] at hcode
    omega
  · rw [Char.ofNat, dif_neg hvalid]
    exact isLower_of_mem_samples (by decide)

/-- **The lowercase form of a character is lowercase.** -/
theorem isLower_of_mem_lowerChar (hc : c ≠ 'Σ') (h : d ∈ lowerChar c) : IsLower d := by
  unfold lowerChar at h
  split at h
  · next hascii =>
      obtain ⟨-, -, -, hall, -⟩ := evaluated_tables
      have hlower := hall c.toNat hascii
      rw [Char.ofNat_toNat] at hlower
      rwa [List.mem_singleton.mp h]
  · split at h
    · have hsample : ∀ c ∈ ['i', '\u0307'], c ∈ ['\u0000', 'i', '\u0307', 'σ', 'ς'] :=
        forall_mem_of_all (by decide)
      exact isLower_of_mem_samples (hsample d h)
    · next hascii hdotted =>
        split at h
        · next s hfound =>
            rw [List.mem_singleton.mp h]
            have hcovers := List.find?_some hfound
            exact isLower_of_mem_shifts (List.mem_of_find?_eq_some hfound) hcovers
        · next hnone =>
            obtain rfl := List.mem_singleton.mp h
            refine ⟨hc, ?_⟩
            rw [lowerChar, if_neg hascii, if_neg hdotted, hnone]

/-! ### Forms -/

/-- A lowercase form of a character.  The capital sigma has two of them. -/
inductive IsForm : Char → List Char → Prop where
  | medial : IsForm 'Σ' ['σ']
  | final : IsForm 'Σ' ['ς']
  | plain {c : Char} (h : c ≠ 'Σ') : IsForm c (lowerChar c)

theorem IsForm.isLower {form : List Char} (h : IsForm c form) (hd : d ∈ form) : IsLower d := by
  cases h with
  | medial =>
      rw [List.mem_singleton.mp hd]
      exact isLower_of_mem_samples (by decide)
  | final =>
      rw [List.mem_singleton.mp hd]
      exact isLower_of_mem_samples (by decide)
  | plain hc => exact isLower_of_mem_lowerChar hc hd

theorem IsForm.ne_nil {form : List Char} (h : IsForm c form) : form ≠ [] := by
  cases h with
  | medial => exact List.cons_ne_nil _ _
  | final => exact List.cons_ne_nil _ _
  | plain hc => exact lowerChar_ne_nil c

/-- **A lowercase form starts with a form of the first character.** -/
theorem exists_isForm (before : List Char) (c : Char) (rest : List Char) :
    ∃ form, IsForm c form ∧ lowerFrom before (c :: rest) = form ++ lowerFrom (c :: before) rest := by
  rw [lowerFrom]
  split
  · next hsigma =>
      subst hsigma
      split
      · exact ⟨['ς'], .final, rfl⟩
      · exact ⟨['σ'], .medial, rfl⟩
  · next hsigma => exact ⟨lowerChar c, .plain hsigma, rfl⟩

/-- Only the text without a character has a lowercase form without one. -/
theorem lowerFrom_eq_nil_iff : lowerFrom before cs = [] ↔ cs = [] := by
  cases cs with
  | nil => exact iff_of_true rfl rfl
  | cons c rest =>
      obtain ⟨form, hform, heq⟩ := exists_isForm before c rest
      rw [heq, List.append_eq_nil_iff]
      exact iff_of_false (fun hnil => hform.ne_nil hnil.1) (List.cons_ne_nil c rest)

/-- All characters of a lowercase form are lowercase. -/
theorem isLower_of_mem_lowerFrom (h : d ∈ lowerFrom before cs) : IsLower d := by
  induction cs generalizing before with
  | nil => exact absurd h List.not_mem_nil
  | cons c rest ih =>
      obtain ⟨form, hform, heq⟩ := exists_isForm before c rest
      rw [heq, List.mem_append] at h
      exact h.elim hform.isLower ih

/-- Lowercase characters stay as they are. -/
theorem lowerFrom_of_forall_isLower (h : ∀ d ∈ cs, IsLower d) : lowerFrom before cs = cs := by
  induction cs generalizing before with
  | nil => rfl
  | cons c rest ih =>
      obtain ⟨⟨hsigma, hchar⟩, hrest⟩ := List.forall_mem_cons.mp h
      rw [lowerFrom, if_neg hsigma, hchar, ih hrest]
      rfl

/-- **Lowercasing twice is lowercasing once.** -/
theorem lowercase_lowercase (s : String) : lowercase (lowercase s) = lowercase s := by
  rw [lowercase, lowercase, String.toList_ofList]
  rw [lowerFrom_of_forall_isLower fun d hd => isLower_of_mem_lowerFrom hd]

/-! ### Texts before a mark -/

/-- A sigma does not look past a mark. -/
theorem reachesCased_append (hcased : isCased mark = false) (hseen : isCaseIgnorable mark = false)
    (cs rest : List Char) : reachesCased (cs ++ mark :: rest) = reachesCased cs := by
  induction cs with
  | nil =>
      rw [List.nil_append, reachesCased, List.dropWhile_cons, if_neg (by simp [hseen])]
      exact hcased
  | cons c cs ih =>
      unfold reachesCased at ih ⊢
      rw [List.cons_append, List.dropWhile_cons, List.dropWhile_cons]
      by_cases hc : isCaseIgnorable c = true
      · rwa [if_pos hc, if_pos hc]
      · rw [if_neg hc, if_neg hc]

theorem lowerFrom_append (hcased : isCased mark = false) (hseen : isCaseIgnorable mark = false)
    (before cs rest : List Char) : lowerFrom before (cs ++ mark :: rest) =
      lowerFrom before cs ++ lowerFrom (cs.reverse ++ before) (mark :: rest) := by
  induction cs generalizing before with
  | nil => rfl
  | cons c cs ih =>
      have hends : endsWord before (cs ++ mark :: rest) = endsWord before cs := by
        rw [endsWord, endsWord, reachesCased_append hcased hseen]
      rw [List.cons_append, lowerFrom, lowerFrom, ih, hends, List.reverse_cons, List.append_assoc,
        List.append_assoc]
      rfl

/-- **A text before a mark is lowercased on its own**, and lowercase characters from the mark on stay
as they are. -/
theorem lowercase_append (hcased : isCased mark = false) (hseen : isCaseIgnorable mark = false)
    (hrest : ∀ d ∈ mark :: rest, IsLower d) (s : String) :
    lowercase (s ++ String.ofList (mark :: rest)) = lowercase s ++ String.ofList (mark :: rest) := by
  rw [lowercase, lowercase, String.toList_append, String.toList_ofList, lowerFrom_append hcased hseen,
    lowerFrom_of_forall_isLower hrest, String.ofList_append]

end CharacterArt.Text
