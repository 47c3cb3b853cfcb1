import CharacterArt.Binary
import Mathlib.Tactic.Common

/-!
# Numbers from their bytes

## Main Results

* `ofLittleEndian_littleEndian_mod`, `ofLittleEndian_littleEndian` — what is read back from the bytes of
  a number, and a number that fits
* `littleEndian_ofLittleEndian` — bytes are written again from the number that they spell
* `splitExactly_append` — the front of a sequence is split off
* `splitExactly_take` — a front is split off if it is not cut short
* `slice?_of_le` — a slice that lies within a sequence is found there
-/

namespace CharacterArt.Binary

open Text (Bytes)

@[simp] theorem length_littleEndian (width n : Nat) : (littleEndian width n).length = width := by
  induction width generalizing n with
  | zero => rfl
  | succ width ih => rw [littleEndian, List.length_cons, ih]

/-- The bytes of a number tell of it what fits in them. -/
theorem ofLittleEndian_littleEndian_mod (width n : Nat) :
    ofLittleEndian (littleEndian width n) = n % Nat.pow 256 width := by
  induction width generalizing n with
  | zero => exact (Nat.mod_one n).symm
  | succ width ih =>
      have hlow : n.toUInt8.toNat = n % 256 := UInt8.toNat_ofNat'
      have hpow : Nat.pow 256 (width + 1) = 256 * Nat.pow 256 width := Nat.pow_succ'
      rw [littleEndian, ofLittleEndian, ih, hlow, hpow, Nat.mod_mul]

/-- **A number is read back from its bytes if it fits in them.** -/
theorem ofLittleEndian_littleEndian {width n : Nat} (h : n < Nat.pow 256 width) :
    ofLittleEndian (littleEndian width n) = n := by
  rw [ofLittleEndian_littleEndian_mod, Nat.mod_eq_of_lt h]

/-- **Bytes are written again from the number that they spell.** -/
theorem littleEndian_ofLittleEndian (bytes : Bytes) :
    littleEndian bytes.length (ofLittleEndian bytes) = bytes := by
  induction bytes with
  | nil => rfl
  | cons b rest ih =>
      have hb : b.toNat < 256 := b.toNat_lt
      have hlow : (b.toNat + 256 * ofLittleEndian rest).toUInt8 = b := by
        rw [← UInt8.toNat_inj, Nat.toUInt8_eq, UInt8.toNat_ofNat']
        omega
      have hhigh : (b.toNat + 256 * ofLittleEndian rest) / 256 = ofLittleEndian rest := by omega
      rw [List.length_cons, ofLittleEndian, littleEndian, hlow, hhigh, ih]

/-- The number that bytes spell fits in them. -/
theorem ofLittleEndian_lt (bytes : Bytes) : ofLittleEndian bytes < Nat.pow 256 bytes.length := by
  induction bytes with
  | nil => exact Nat.one_pos
  | cons b rest ih =>
      have hb : b.toNat < 256 := b.toNat_lt
      have hpow : Nat.pow 256 (rest.length + 1) = Nat.pow 256 rest.length * 256 := rfl
      rw [List.length_cons, hpow, ofLittleEndian]
      omega

/-- **The front of a sequence is split off.** -/
theorem splitExactly_append {n : Nat} {front : Bytes} (h : front.length = n) (back : Bytes) :
    splitExactly n (front ++ back) = some (front, back) := by
  induction front generalizing n with
  | nil =>
      subst h
      rfl
  | cons b rest ih =>
      subst h
      rw [List.length_cons, List.cons_append, splitExactly, ih rfl]
      rfl

/-- A sequence that is too short has no front of that length. -/
theorem splitExactly_eq_none {n : Nat} {bytes : Bytes} (h : bytes.length < n) :
    splitExactly n bytes = none := by
  induction n generalizing bytes with
  | zero => cases h
  | succ n ih =>
      cases bytes with
      | nil => rfl
      | cons b rest =>
          rw [splitExactly, ih (Nat.lt_of_succ_lt_succ h)]
          rfl

/-- **A front is split off exactly if it is not cut short.** -/
theorem splitExactly_take {width : Nat} {front : Bytes} (h : front.length = width) (back : Bytes)
    (n : Nat) :
    splitExactly width ((front ++ back).take n) =
      if n < width then none else some (front, back.take (n - width)) := by
  subst h
  split
  · next hn =>
      apply splitExactly_eq_none
      rw [List.length_take]
      omega
  · next hn =>
      rw [List.take_append, List.take_of_length_le (Nat.le_of_not_lt hn), splitExactly_append rfl]

/-- What is split off is the front. -/
theorem append_of_splitExactly {n : Nat} {bytes front back : Bytes}
    (h : splitExactly n bytes = some (front, back)) :
    bytes = front ++ back ∧ front.length = n := by
  induction n generalizing bytes front with
  | zero =>
      cases h
      exact ⟨rfl, rfl⟩
  | succ n ih =>
      cases bytes with
      | nil => cases h
      | cons b rest =>
          simp only [splitExactly, Option.map_eq_some_iff, Prod.mk.injEq, Prod.exists] at h
          obtain ⟨front', back', hrest, rfl, rfl⟩ := h
          obtain ⟨rfl, hlength⟩ := ih hrest
          exact ⟨rfl, by rw [List.length_cons, hlength]⟩

/-- **A slice that lies within a sequence is found there**, and it has its full length. -/
theorem slice?_of_le {offset n : Nat} {bytes : Bytes} (h : offset + n ≤ bytes.length) :
    slice? offset n bytes = some ((bytes.drop offset).take n) ∧
      ((bytes.drop offset).take n).length = n := by
  have hlength : ((bytes.drop offset).take n).length = n := by
    rw [List.length_take, List.length_drop]
    omega
  exact ⟨if_pos hlength, hlength⟩

end CharacterArt.Binary
