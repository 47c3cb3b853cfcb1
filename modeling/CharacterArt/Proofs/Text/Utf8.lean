import CharacterArt.Text.Utf8
import Mathlib.Tactic.Common

/-!
# Texts from their bytes

The reader of UTF-8 takes a text back from the bytes that the writer makes of it.

## Main Results

* `length_encode` — how many bytes a text has
* `decodeFrom_encodeChar` — the bytes of a character are read as that character
* `decode_encode` — the bytes of a text are read as that text
-/

namespace CharacterArt.Text.Utf8

/-! ### How many bytes a text has -/

/-- The number of bytes of a character. -/
theorem length_encodeChar (c : Char) : (encodeChar c).length = c.utf8Size := by
  have hvalue : c.toNat = c.val.toNat := rfl
  have h1 : c.val ≤ 0x7F ↔ c.toNat < 0x80 := by
    rw [UInt32.le_iff_toNat_le, hvalue, Nat.lt_succ_iff]
    rfl
  have h2 : c.val ≤ 0x7FF ↔ c.toNat < 0x800 := by
    rw [UInt32.le_iff_toNat_le, hvalue, Nat.lt_succ_iff]
    rfl
  have h3 : c.val ≤ 0xFFFF ↔ c.toNat < 0x10000 := by
    rw [UInt32.le_iff_toNat_le, hvalue, Nat.lt_succ_iff]
    rfl
  have hsize : c.utf8Size = if c.val ≤ 0x7F then 1 else if c.val ≤ 0x7FF then 2
      else if c.val ≤ 0xFFFF then 3 else 4 := rfl
  simp only [hsize, h1, h2, h3, encodeChar]
  split
  · rfl
  split
  · rfl
  split <;> rfl

/-- **The number of bytes of a text.** -/
theorem length_encode (s : String) : (encode s).length = s.utf8ByteSize := by
  have hbytes : s.toByteArray = (s.toList.flatMap String.utf8EncodeChar).toByteArray := by
    conv_lhs => rw [← String.ofList_toList (s := s)]
    exact String.toByteArray_ofList
  rw [← String.size_toByteArray, hbytes, List.size_toByteArray, encode, List.length_flatMap,
    List.length_flatMap]
  refine congrArg List.sum (List.map_congr_left fun c _ => ?_)
  rw [length_encodeChar, String.length_utf8EncodeChar]

/-! ### Characters from their bytes -/

/-- What the first byte of a character begins, by the value of the byte. -/
theorem start_toUInt8 {n : Nat} (h : n < 256) :
    start n.toUInt8 =
      if n < 0x80 then some (.inl (Char.ofNat n))
      else if n < 0xC2 then none
      else if n < 0xE0 then some (.inr ⟨1, 1, 0x80, 0xBF, n - 0xC0⟩)
      else if n < 0xF0 then
        some (.inr ⟨1, 2, if n = 0xE0 then 0xA0 else 0x80,
          if n = 0xED then 0x9F else 0xBF, n - 0xE0⟩)
      else if n < 0xF5 then
        some (.inr ⟨1, 3, if n = 0xF0 then 0x90 else 0x80,
          if n = 0xF4 then 0x8F else 0xBF, n - 0xF0⟩)
      else none := by
  have hn : n.toUInt8.toNat = n := UInt8.toNat_ofNat_of_lt' h
  simp only [start, UInt8.lt_iff_toNat_lt, ← UInt8.toNat_inj, hn]
  rfl

/-- What six more bits make of a character that has begun. -/
theorem next_toUInt8 {seen owed bits k : Nat} {low high : UInt8} (hk : k < 64)
    (hlow : low.toNat ≤ 0x80 + k) (hhigh : 0x80 + k ≤ high.toNat) :
    Partial.next ⟨seen, owed, low, high, bits⟩ (0x80 + k).toUInt8 =
      if owed ≤ 1 then some (.inl (Char.ofNat (bits * 64 + k)))
      else some (.inr ⟨seen + 1, owed - 1, 0x80, 0xBF, bits * 64 + k⟩) := by
  have hn : (0x80 + k).toUInt8.toNat = 0x80 + k :=
    UInt8.toNat_ofNat_of_lt' (show 0x80 + k < 256 by omega)
  simp only [Partial.next, UInt8.le_iff_toNat_le, hn]
  rw [if_pos ⟨hlow, hhigh⟩, Nat.add_sub_cancel_left]

/-- A byte that may be any six bits. -/
theorem next_tail {seen owed bits k : Nat} (hk : k < 64) :
    Partial.next ⟨seen, owed, 0x80, 0xBF, bits⟩ (0x80 + k).toUInt8 =
      if owed ≤ 1 then some (.inl (Char.ofNat (bits * 64 + k)))
      else some (.inr ⟨seen + 1, owed - 1, 0x80, 0xBF, bits * 64 + k⟩) :=
  next_toUInt8 hk (Nat.le_add_right 0x80 k) (show 0x80 + k ≤ 0xBF by omega)

/-- A character is no surrogate and not too large. -/
theorem toNat_valid (c : Char) : c.toNat < 0xD800 ∨ 0xDFFF < c.toNat ∧ c.toNat < 0x110000 :=
  c.valid

section Steps

variable (offset : Nat) (read : List Char) (rest : Bytes) {b : UInt8} {p q : Partial} {c : Char}
  {n : Nat}

theorem decodeFrom_start (h : start b = some (.inr p)) :
    decodeFrom offset none read (b :: rest) = decodeFrom offset (some p) read rest := by
  simp only [decodeFrom, h]

theorem decodeFrom_next (h : p.next b = some (.inr q)) :
    decodeFrom offset (some p) read (b :: rest) = decodeFrom offset (some q) read rest := by
  simp only [decodeFrom, h]

theorem decodeFrom_last (h : p.next b = some (.inl c)) :
    decodeFrom offset (some p) read (b :: rest) =
      decodeFrom (offset + p.seen + 1) none (c :: read) rest := by
  simp only [decodeFrom, h]

theorem decodeFrom_one (hn : n < 0x80) :
    decodeFrom offset none read (n.toUInt8 :: rest) =
      decodeFrom (offset + 1) none (Char.ofNat n :: read) rest := by
  have hstart : start n.toUInt8 = some (.inl (Char.ofNat n)) := by
    rw [start_toUInt8 (by omega), if_pos hn]
  rw [decodeFrom, hstart]

theorem decodeFrom_two (hlow : 0x80 ≤ n) (hhigh : n < 0x800) :
    decodeFrom offset none read ((0xC0 + n / 64).toUInt8 :: (0x80 + n % 64).toUInt8 :: rest) =
      decodeFrom (offset + 2) none (Char.ofNat n :: read) rest := by
  have hstart : start (0xC0 + n / 64).toUInt8 = some (.inr ⟨1, 1, 0x80, 0xBF, n / 64⟩) := by
    rw [start_toUInt8 (by omega), if_neg (by omega), if_neg (by omega), if_pos (by omega),
      Nat.add_sub_cancel_left]
  have hlast : Partial.next ⟨1, 1, 0x80, 0xBF, n / 64⟩ (0x80 + n % 64).toUInt8 =
      some (.inl (Char.ofNat n)) := by
    rw [next_tail (by omega), if_pos (Nat.le_refl 1), Nat.div_add_mod']
  rw [decodeFrom_start _ _ _ hstart, decodeFrom_last _ _ _ hlast]

theorem decodeFrom_three (hlow : 0x800 ≤ n) (hhigh : n < 0x10000)
    (hvalid : n < 0xD800 ∨ 0xDFFF < n) :
    decodeFrom offset none read ((0xE0 + n / 4096).toUInt8 :: (0x80 + n / 64 % 64).toUInt8 ::
        (0x80 + n % 64).toUInt8 :: rest) =
      decodeFrom (offset + 3) none (Char.ofNat n :: read) rest := by
  have hstart : start (0xE0 + n / 4096).toUInt8 = some (.inr ⟨1, 2,
      if 0xE0 + n / 4096 = 0xE0 then 0xA0 else 0x80,
      if 0xE0 + n / 4096 = 0xED then 0x9F else 0xBF, n / 4096⟩) := by
    rw [start_toUInt8 (by omega), if_neg (by omega), if_neg (by omega), if_neg (by omega),
      if_pos (by omega), Nat.add_sub_cancel_left]
  -- the bounds of the second byte keep overlong forms and surrogates out
  have hnext : Partial.next ⟨1, 2, if 0xE0 + n / 4096 = 0xE0 then 0xA0 else 0x80,
      if 0xE0 + n / 4096 = 0xED then 0x9F else 0xBF, n / 4096⟩ (0x80 + n / 64 % 64).toUInt8 =
      some (.inr ⟨2, 1, 0x80, 0xBF, n / 64⟩) := by
    rw [next_toUInt8 (by omega), if_neg (by omega)]
    · rw [show n / 4096 * 64 + n / 64 % 64 = n / 64 by omega]
    · split
      · show 0xA0 ≤ _
        omega
      · exact Nat.le_add_right 0x80 _
    · split
      · show _ ≤ 0x9F
        omega
      · show _ ≤ 0xBF
        omega
  have hlast : Partial.next ⟨2, 1, 0x80, 0xBF, n / 64⟩ (0x80 + n % 64).toUInt8 =
      some (.inl (Char.ofNat n)) := by
    rw [next_tail (by omega), if_pos (Nat.le_refl 1), Nat.div_add_mod']
  rw [decodeFrom_start _ _ _ hstart, decodeFrom_next _ _ _ hnext, decodeFrom_last _ _ _ hlast]

theorem decodeFrom_four (hlow : 0x10000 ≤ n) (hhigh : n < 0x110000) :
    decodeFrom offset none read ((0xF0 + n / 262144).toUInt8 :: (0x80 + n / 4096 % 64).toUInt8 ::
        (0x80 + n / 64 % 64).toUInt8 :: (0x80 + n % 64).toUInt8 :: rest) =
      decodeFrom (offset + 4) none (Char.ofNat n :: read) rest := by
  have hstart : start (0xF0 + n / 262144).toUInt8 = some (.inr ⟨1, 3,
      if 0xF0 + n / 262144 = 0xF0 then 0x90 else 0x80,
      if 0xF0 + n / 262144 = 0xF4 then 0x8F else 0xBF, n / 262144⟩) := by
    rw [start_toUInt8 (by omega), if_neg (by omega), if_neg (by omega), if_neg (by omega),
      if_neg (by omega), if_pos (by omega), Nat.add_sub_cancel_left]
  -- the bounds of the second byte keep overlong forms and what lies past the last character out
  have hnext : Partial.next ⟨1, 3, if 0xF0 + n / 262144 = 0xF0 then 0x90 else 0x80,
      if 0xF0 + n / 262144 = 0xF4 then 0x8F else 0xBF, n / 262144⟩
      (0x80 + n / 4096 % 64).toUInt8 = some (.inr ⟨2, 2, 0x80, 0xBF, n / 4096⟩) := by
    rw [next_toUInt8 (by omega), if_neg (by omega)]
    · rw [show n / 262144 * 64 + n / 4096 % 64 = n / 4096 by omega]
    · split
      · show 0x90 ≤ _
        omega
      · exact Nat.le_add_right 0x80 _
    · split
      · show _ ≤ 0x8F
        omega
      · show _ ≤ 0xBF
        omega
  have hthird : Partial.next ⟨2, 2, 0x80, 0xBF, n / 4096⟩ (0x80 + n / 64 % 64).toUInt8 =
      some (.inr ⟨3, 1, 0x80, 0xBF, n / 64⟩) := by
    rw [next_tail (by omega), if_neg (by omega),
      show n / 4096 * 64 + n / 64 % 64 = n / 64 by omega]
  have hlast : Partial.next ⟨3, 1, 0x80, 0xBF, n / 64⟩ (0x80 + n % 64).toUInt8 =
      some (.inl (Char.ofNat n)) := by
    rw [next_tail (by omega), if_pos (Nat.le_refl 1), Nat.div_add_mod']
  rw [decodeFrom_start _ _ _ hstart, decodeFrom_next _ _ _ hnext, decodeFrom_next _ _ _ hthird,
    decodeFrom_last _ _ _ hlast]

/-- **Behind the bytes of a character the reader holds that character.** -/
theorem decodeFrom_encodeChar (c : Char) :
    decodeFrom offset none read (encodeChar c ++ rest) =
      decodeFrom (offset + (encodeChar c).length) none (c :: read) rest := by
  have hvalid := toNat_valid c
  have hback : Char.ofNat c.toNat = c := Char.ofNat_toNat c
  simp only [encodeChar]
  by_cases h1 : c.toNat < 0x80
  · have h := decodeFrom_one offset read rest h1
    rw [hback] at h
    rw [if_pos h1]
    exact h
  by_cases h2 : c.toNat < 0x800
  · have h := decodeFrom_two offset read rest (Nat.le_of_not_lt h1) h2
    rw [hback] at h
    rw [if_neg h1, if_pos h2]
    exact h
  by_cases h3 : c.toNat < 0x10000
  · have h := decodeFrom_three offset read rest (Nat.le_of_not_lt h2) h3 (by omega)
    rw [hback] at h
    rw [if_neg h1, if_neg h2, if_pos h3]
    exact h
  · have h := decodeFrom_four offset read rest (Nat.le_of_not_lt h3) (by omega)
    rw [hback] at h
    rw [if_neg h1, if_neg h2, if_neg h3]
    exact h

end Steps

/-- Characters before the end are read one by one. -/
theorem decodeFrom_flatMap (offset : Nat) (read cs : List Char) :
    decodeFrom offset none read (cs.flatMap encodeChar) = .ok (read.reverse ++ cs) := by
  induction cs generalizing offset read with
  | nil =>
      rw [List.flatMap_nil, decodeFrom, List.append_nil]
  | cons c rest ih =>
      rw [List.flatMap_cons, decodeFrom_encodeChar, ih, List.reverse_cons, List.append_assoc,
        List.singleton_append]

/-- **The bytes of a text are read as that text.** -/
theorem decode_encode (s : String) : decode (encode s) = .ok s := by
  rw [decode, encode, decodeFrom_flatMap]
  show Except.ok (String.ofList ([].reverse ++ s.toList)) = .ok s
  rw [List.reverse_nil, List.nil_append, String.ofList_toList]

end CharacterArt.Text.Utf8
