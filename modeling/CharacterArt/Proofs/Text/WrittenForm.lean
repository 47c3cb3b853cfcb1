import CharacterArt.Proofs.Text.Utf8
import Mathlib.Algebra.Group.Nat.Defs

/-!
# The written form of a text

A text has one written form: bytes that are read as a text are the bytes that the writer makes of
it.  Inside a character the reader has not seen all of its bytes, so what it holds then is tied to
every character that can still come of them.

## Main Definitions

* `trail` — the bytes of a character that hold its last bits
* `Partial.Opens`, `Holds` — bytes open what the reader holds

## Main Results

* `opens_of_start`, `Partial.Opens.next`, `Partial.Opens.last` — what a byte does to the bytes so far
* `decode_eq_ok_iff` — the bytes that are read as a text are the bytes of that text
-/

namespace CharacterArt.Text.Utf8

/-- The last bytes of a character, six bits each. -/
def trail : (owed : Nat) → (n : Nat) → Bytes
  | 0, _ => []
  | owed + 1, n => (0x80 + n / 64 ^ owed % 64).toUInt8 :: trail owed n

/-- Bytes open what the reader holds: whichever character still comes of it begins with them, and
only its last bits are missing. -/
structure Partial.Opens (p : Partial) (front : Bytes) : Prop where
  owed : 1 ≤ p.owed
  low : 0x80 ≤ p.low.toNat
  high : p.high.toNat ≤ 0xBF
  encodes : ∀ n, n / 64 ^ p.owed = p.bits → p.low.toNat ≤ 0x80 + n / 64 ^ (p.owed - 1) % 64 →
    0x80 + n / 64 ^ (p.owed - 1) % 64 ≤ p.high.toNat →
    encodeChar (Char.ofNat n) = front ++ trail p.owed n

/-! ### First bytes -/

/-- The bytes of a character by its number. -/
theorem encodeChar_ofNat {n : Nat} (h : n < 0xD800 ∨ 0xDFFF < n ∧ n < 0x110000) :
    encodeChar (Char.ofNat n) =
      if n < 0x80 then [n.toUInt8]
      else if n < 0x800 then (0xC0 + n / 64).toUInt8 :: trail 1 n
      else if n < 0x10000 then (0xE0 + n / 4096).toUInt8 :: trail 2 n
      else (0xF0 + n / 262144).toUInt8 :: trail 3 n := by
  have hn : (Char.ofNat n).toNat = n := by
    rw [Char.ofNat, dif_pos h]
    rfl
  simp only [encodeChar, hn, trail, Nat.pow_zero, Nat.div_one, Nat.reducePow]

/-- A byte is the byte of its value. -/
theorem toUInt8_toNat (b : UInt8) : b.toNat.toUInt8 = b :=
  UInt8.ofNat_toNat

/-- A first byte that is a character is the byte of that character. -/
theorem encodeChar_of_start {b : UInt8} {c : Char} (h : start b = some (.inl c)) :
    encodeChar c = [b] := by
  rw [← toUInt8_toNat b, start_toUInt8 b.toNat_lt] at h
  split at h
  · next hb =>
      cases h
      rw [encodeChar_ofNat (by omega), if_pos hb, toUInt8_toNat]
  · grind

/-- A first byte that opens a character opens what the reader holds. -/
theorem opens_of_start {b : UInt8} {p : Partial} (h : start b = some (.inr p)) : p.Opens [b] := by
  have hlt : b.toNat < 256 := b.toNat_lt
  rw [← toUInt8_toNat b, start_toUInt8 hlt] at h
  rw [← toUInt8_toNat b]
  generalize b.toNat = k at h hlt
  split at h
  · cases h
  split at h
  · cases h
  -- the bounds of the second byte say that the number is that of a character of this length
  split at h
  · cases h
    refine ⟨Nat.le_refl 1, Nat.le_refl 0x80, Nat.le_refl 0xBF, fun n hbits hlow hhigh => ?_⟩
    simp only [Nat.reducePow] at hbits
    rw [encodeChar_ofNat (by omega), if_neg (by omega), if_pos (by omega), hbits,
      Nat.add_sub_cancel' (by omega)]
    rfl
  split at h
  · cases h
    refine ⟨Nat.le_add_left 1 _, ?_, ?_, fun n hbits hlow hhigh => ?_⟩
    · dsimp only
      split <;> decide
    · dsimp only
      split <;> decide
    simp only [Nat.reducePow, Nat.reduceSub] at hbits hlow hhigh
    have h800 : k = 0xE0 → 0xA0 ≤ 0x80 + n / 64 % 64 := fun hk => by simpa [hk] using hlow
    have hD800 : k = 0xED → 0x80 + n / 64 % 64 ≤ 0x9F := fun hk => by simpa [hk] using hhigh
    rw [encodeChar_ofNat (by omega), if_neg (by omega), if_neg (by omega), if_pos (by omega), hbits,
      Nat.add_sub_cancel' (by omega)]
    rfl
  split at h
  · cases h
    refine ⟨Nat.le_add_left 1 _, ?_, ?_, fun n hbits hlow hhigh => ?_⟩
    · dsimp only
      split <;> decide
    · dsimp only
      split <;> decide
    simp only [Nat.reducePow, Nat.reduceSub] at hbits hlow hhigh
    have h10000 : k = 0xF0 → 0x90 ≤ 0x80 + n / 4096 % 64 := fun hk => by simpa [hk] using hlow
    have h110000 : k = 0xF4 → 0x80 + n / 4096 % 64 ≤ 0x8F := fun hk => by simpa [hk] using hhigh
    rw [encodeChar_ofNat (by omega), if_neg (by omega), if_neg (by omega), if_neg (by omega), hbits,
      Nat.add_sub_cancel' (by omega)]
    rfl
  · cases h

/-! ### Further bytes -/

namespace Partial

variable {p q : Partial} {b : UInt8} {front : Bytes} {c : Char}

/-- A byte that goes on with a character holds six bits of it. -/
theorem Opens.bounds (hp : p.Opens front) {next : Char ⊕ Partial} (h : p.next b = some next) :
    p.low.toNat ≤ b.toNat ∧ b.toNat ≤ p.high.toNat ∧ b.toNat - 0x80 < 64 ∧
      0x80 + (b.toNat - 0x80) = b.toNat := by
  rw [Partial.next] at h
  split at h
  · next hb =>
      have hlow := UInt8.le_iff_toNat_le.mp hb.1
      have hhigh := UInt8.le_iff_toNat_le.mp hb.2
      have h80 := hp.low
      have hBF := hp.high
      omega
  · cases h

/-- A number whose next six bits are those of a byte begins with the bytes before and that byte. -/
theorem Opens.encodes_of_byte (hp : p.Opens front) (hlow : p.low.toNat ≤ b.toNat)
    (hhigh : b.toNat ≤ p.high.toNat) {n : Nat}
    (hn : n / 64 ^ (p.owed - 1) = p.bits * 64 + (b.toNat - 0x80)) :
    encodeChar (Char.ofNat n) = (front ++ [b]) ++ trail (p.owed - 1) n := by
  have h80 := hp.low
  have hBF := hp.high
  obtain ⟨owed, howed⟩ : ∃ owed, p.owed = owed + 1 := ⟨p.owed - 1, (Nat.sub_add_cancel hp.owed).symm⟩
  rw [howed, Nat.add_sub_cancel] at hn
  have hdigit : n / 64 ^ owed % 64 = b.toNat - 0x80 := by omega
  have hbits : n / 64 ^ p.owed = p.bits := by
    rw [howed, Nat.pow_succ, ← Nat.div_div_eq_div_mul]
    omega
  have hbyte : 0x80 + (b.toNat - 0x80) = b.toNat := by omega
  rw [hp.encodes n hbits, howed, Nat.add_sub_cancel, trail, hdigit, hbyte, toUInt8_toNat,
    List.append_assoc, List.singleton_append]
  · rwa [howed, Nat.add_sub_cancel, hdigit, hbyte]
  · rwa [howed, Nat.add_sub_cancel, hdigit, hbyte]

/-- A byte that goes on with a character opens what the reader holds then. -/
theorem Opens.next (hp : p.Opens front) (h : p.next b = some (.inr q)) : q.Opens (front ++ [b]) := by
  obtain ⟨hlow, hhigh, -⟩ := hp.bounds h
  rw [Partial.next] at h
  split at h
  · dsimp only at h
    split at h
    · cases h
    · next howed =>
        cases h
        refine ⟨by dsimp only; omega, Nat.le_refl 0x80, Nat.le_refl 0xBF, fun n hn _ _ => ?_⟩
        exact hp.encodes_of_byte hlow hhigh hn
  · cases h

/-- A byte that ends a character is its last one. -/
theorem Opens.last (hp : p.Opens front) (h : p.next b = some (.inl c)) :
    encodeChar c = front ++ [b] := by
  obtain ⟨hlow, hhigh, -⟩ := hp.bounds h
  rw [Partial.next] at h
  split at h
  · dsimp only at h
    split at h
    · next howed =>
        have hone : p.owed - 1 = 0 := by omega
        have hlast := hp.encodes_of_byte hlow hhigh (n := p.bits * 64 + (b.toNat - 0x80))
          (by rw [hone, Nat.pow_zero, Nat.div_one])
        rwa [hone, trail, List.append_nil, Sum.inl.inj (Option.some.inj h)] at hlast
    · cases h
  · cases h

end Partial

/-! ### Texts -/

/-- The bytes since the last complete character are those that the reader holds. -/
def Holds : Option Partial → Bytes → Prop
  | none, front => front = []
  | some p, front => p.Opens front

/-- What the reader gives are the characters whose bytes it was given, after those that it had
before. -/
theorem exists_of_decodeFrom {offset : Nat} {now : Option Partial} {read cs : List Char}
    {front bytes : Bytes} (hnow : Holds now front)
    (h : decodeFrom offset now read bytes = .ok cs) :
    ∃ more, cs = read.reverse ++ more ∧ front ++ bytes = more.flatMap encodeChar := by
  induction bytes generalizing offset now read front with
  | nil =>
      cases now with
      | none =>
          cases h
          exact ⟨[], (List.append_nil _).symm, by rw [show front = [] from hnow]; rfl⟩
      | some p => cases h
  | cons b rest ih =>
      -- a character that is complete stands before those that are read from the rest
      have hcomplete {offset : Nat} {c : Char} (hc : encodeChar c = front ++ [b])
          (hrest : decodeFrom offset none (c :: read) rest = .ok cs) :
          ∃ more, cs = read.reverse ++ more ∧ front ++ b :: rest = more.flatMap encodeChar := by
        obtain ⟨more, rfl, hmore⟩ := ih (show Holds none [] from rfl) hrest
        refine ⟨c :: more, by rw [List.reverse_cons, List.append_assoc, List.singleton_append], ?_⟩
        rw [List.flatMap_cons, hc, ← hmore, List.nil_append, List.append_assoc,
          List.singleton_append]
      -- one that is not stays open
      have hopen {offset : Nat} {q : Partial} (hq : q.Opens (front ++ [b]))
          (hrest : decodeFrom offset (some q) read rest = .ok cs) :
          ∃ more, cs = read.reverse ++ more ∧ front ++ b :: rest = more.flatMap encodeChar := by
        obtain ⟨more, hcs, hmore⟩ := ih (show Holds (some q) _ from hq) hrest
        rw [List.append_assoc, List.singleton_append] at hmore
        exact ⟨more, hcs, hmore⟩
      cases now with
      | none =>
          rw [show front = [] from hnow] at hcomplete hopen ⊢
          simp only [decodeFrom] at h
          split at h
          · next c hstart => exact hcomplete (encodeChar_of_start hstart) h
          · next q hstart => exact hopen (opens_of_start hstart) h
          · cases h
      | some p =>
          have hp : p.Opens front := hnow
          simp only [decodeFrom] at h
          split at h
          · next c hnext => exact hcomplete (hp.last hnext) h
          · next q hnext => exact hopen (hp.next hnext) h
          · cases h

/-- **The bytes that are read as a text are the bytes of that text**, and no others. -/
theorem decode_eq_ok_iff {bytes : Bytes} {s : String} : decode bytes = .ok s ↔ bytes = encode s := by
  constructor
  · intro h
    rw [decode] at h
    cases hcs : decodeFrom 0 none [] bytes with
    | error f =>
        rw [hcs] at h
        cases h
    | ok cs =>
        rw [hcs] at h
        cases h
        obtain ⟨more, rfl, hmore⟩ := exists_of_decodeFrom (show Holds none [] from rfl) hcs
        rw [encode, String.toList_ofList]
        exact hmore
  · rintro rfl
    exact decode_encode s

end CharacterArt.Text.Utf8
