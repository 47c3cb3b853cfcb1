import CharacterArt.Lz4.Block
import CharacterArt.Proofs.Binary
import CharacterArt.Proofs.Traversal

/-!
# How far blocks expand

A byte of a block stands for at most 255 bytes of output: a literal for itself, a byte of a length
for at most 255, and a token with the two bytes of its distance for at most 18.

## Main Results

* `length_le_of_decode` — a block expands to at most 255 times its length
* `length_le_capacity_of_decode` — and never to more than it may
-/

namespace CharacterArt.Lz4

open Text (Bytes)
open Binary (splitExactly)

theorem size_copyBack (distance length : Nat) (out : Array UInt8) :
    (copyBack distance length out).size = out.size + length := by
  induction length generalizing out with
  | zero => rfl
  | succ length ih =>
      rw [copyBack, ih, Array.size_push]
      omega

/-- The bytes of a length pay for it. -/
theorem le_of_readLength {length n : Nat} {bytes rest : Bytes}
    (h : readLength length bytes = .ok (n, rest)) :
    n + 255 * rest.length ≤ length + 255 * bytes.length := by
  induction bytes generalizing length with
  | nil => cases h
  | cons b bytes ih =>
      rw [readLength] at h
      split at h
      · have hrest := ih h
        rw [List.length_cons]
        omega
      · have hb := b.toNat_lt
        cases h
        rw [List.length_cons]
        omega

/-- The bytes of a length pay for all of it but four bits. -/
theorem le_of_lengthFrom {nibble n : Nat} {bytes rest : Bytes}
    (h : lengthFrom nibble bytes = .ok (n, rest)) :
    n + 255 * rest.length ≤ nibble + 255 * bytes.length := by
  rw [lengthFrom] at h
  split at h
  · next hnibble => exact hnibble ▸ le_of_readLength h
  · cases h
    exact Nat.le_refl _

/-- The bytes of the rest of a block pay for what it adds to the output. -/
theorem size_le_of_decodeFrom {capacity fuel : Nat} {out result : Array UInt8} {bytes : Bytes}
    (h : decodeFrom capacity fuel out bytes = .ok result) :
    result.size ≤ out.size + 255 * bytes.length := by
  induction fuel generalizing out bytes with
  | zero => cases h
  | succ fuel ih =>
      cases bytes with
      | nil => cases h
      | cons token bytes =>
          have htoken := token.toNat_lt
          unfold decodeFrom at h
          split at h
          · cases h
          next literals afterLength hliterals =>
          have hpaid := le_of_lengthFrom hliterals
          split at h
          · cases h
          next front afterLiterals hfront =>
          obtain ⟨rfl, rfl⟩ := Binary.append_of_splitExactly hfront
          rw [List.length_append] at hpaid
          split at h
          · cases h
          simp only at h
          split at h
          · -- the last sequence: literals alone
            cases h
            simp only [Array.size_append, List.size_toArray, List.length_cons, List.length_nil]
              at hpaid ⊢
            omega
          · cases h
          next low high afterDistance =>
          split at h
          · cases h
          next length rest hlength =>
          have hpaid' := le_of_lengthFrom hlength
          split at h
          · cases h
          split at h
          · cases h
          have hrest := ih h
          simp only [size_copyBack, Array.size_append, List.size_toArray, minMatch,
            List.length_cons] at hrest hpaid ⊢
          omega

/-- **A block expands to at most 255 times its length.** -/
theorem length_le_of_decode {capacity : Nat} {block raw : Bytes}
    (h : decode capacity block = .ok raw) : raw.length ≤ 255 * block.length := by
  obtain ⟨out, hout, rfl⟩ := map_eq_ok_iff.mp h
  have hsize := size_le_of_decodeFrom hout
  rwa [Array.size_empty, Nat.zero_add] at hsize

/-- What is decoded is never more than there may be. -/
theorem size_le_capacity_of_decodeFrom {capacity fuel : Nat} {out result : Array UInt8}
    {bytes : Bytes} (h : decodeFrom capacity fuel out bytes = .ok result) :
    result.size ≤ capacity := by
  induction fuel generalizing out bytes with
  | zero => cases h
  | succ fuel ih =>
      cases bytes with
      | nil => cases h
      | cons token bytes =>
          unfold decodeFrom at h
          split at h
          · cases h
          next literals afterLength _ =>
          split at h
          · cases h
          next front afterLiterals hfront =>
          obtain ⟨-, rfl⟩ := Binary.append_of_splitExactly hfront
          split at h
          · cases h
          next hroom =>
          simp only at h
          split at h
          · -- the last sequence: there was room for its literals
            cases h
            simpa using hroom
          · cases h
          next low high afterDistance =>
          split at h
          · cases h
          split at h
          · cases h
          split at h
          · cases h
          exact ih h

/-- **A block is never decoded to more than it may.** -/
theorem length_le_capacity_of_decode {capacity : Nat} {block raw : Bytes}
    (h : decode capacity block = .ok raw) : raw.length ≤ capacity := by
  obtain ⟨out, hout, rfl⟩ := map_eq_ok_iff.mp h
  exact size_le_capacity_of_decodeFrom hout

end CharacterArt.Lz4
