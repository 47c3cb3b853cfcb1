import CharacterArt.Proofs.Bundle.RoundTrip

/-!
# Limits of a bundle

The writer looks at the lengths of the texts only, and the reader at the number of the entries only.
So the writer makes files of more objects than a table may have, and no reader takes them.  The number
of the objects stands in four bytes, and from 2³² objects on it is not even told.

## Main Definitions

* `oversized` — one object more than a table may have

## Main Results

* `ofBytes_of_encode` — what a reader finds in a file that was made
* `readable_iff` — which files are made, and which of them are read back with all their objects
* `exists_unreadable` — a file that is made and cannot be read
-/

namespace CharacterArt.Bundle

open Text (Bytes)

variable {objects : List Packed} {bytes : Bytes}

/-- **What a reader finds in a file that was made.**  It is told as many objects as are left by the
multiples of 2³². -/
theorem ofBytes_of_encode (h : encode objects = .ok bytes) (path : String) :
    ofBytes path bytes =
      if maxEntries < objects.length % UInt32.size then
        .error (.bundleCorrupt ((Path.stem path).getD "")
          (.tableTooLarge (objects.length % UInt32.size)))
      else .ok ⟨(Path.stem path).getD "", formatVersion,
        (tableOf objects).take (objects.length % UInt32.size), bytes⟩ := by
  obtain ⟨hfits, rfl⟩ := encode_eq_ok_iff.mp h
  have htexts : ∀ e ∈ tableOf objects, e.TextsFit := textsFit_of_mem_entriesFrom hfits
  have hlength : (tableOf objects).length = objects.length := length_entriesFrom _
  rw [ofBytes, file, readTable_encodeTable_eq htexts, hlength]
  split <;> rfl

/-- **Which files are made, and which of them are read back.**  A file is made of objects exactly if
their texts are short enough.  It is read back with as many entries as there were objects exactly if
these are not more than a table may have.  It is read back at all exactly if that holds of what is
left of their number by the multiples of 2³². -/
theorem readable_iff (objects : List Packed) (path : String) :
    ((∃ bytes, encode objects = .ok bytes) ↔ ∀ o ∈ objects, o.TextsFit) ∧
    ∀ bytes, encode objects = .ok bytes →
      ((∃ b, ofBytes path bytes = .ok b ∧ b.entries.length = objects.length) ↔
        objects.length ≤ maxEntries) ∧
      ((∃ b, ofBytes path bytes = .ok b) ↔ objects.length % UInt32.size ≤ maxEntries) ∧
      (maxEntries < objects.length → objects.length < UInt32.size →
        ofBytes path bytes = .error (.bundleCorrupt ((Path.stem path).getD "")
          (.tableTooLarge objects.length))) := by
  refine ⟨⟨?_, fun hfits => ⟨_, encode_eq_ok_iff.mpr ⟨hfits, rfl⟩⟩⟩, fun bytes h => ?_⟩
  · rintro ⟨bytes, h⟩
    exact (encode_eq_ok_iff.mp h).1
  have hread := ofBytes_of_encode h path
  have hlength : (tableOf objects).length = objects.length := length_entriesFrom _
  have hle : objects.length % UInt32.size ≤ objects.length := Nat.mod_le _ _
  refine ⟨⟨?_, fun hcount => ?_⟩, ⟨?_, fun hcount => ?_⟩, fun hmany hsmall => ?_⟩
  · rintro ⟨b, hb, hall⟩
    rw [hread] at hb
    split at hb
    · cases hb
    · next hcount =>
        -- what is read is what the count tells, so all objects are read only if it tells them all
        cases hb
        rw [List.length_take, hlength, Nat.min_eq_left hle] at hall
        omega
  · have hsmall : objects.length < UInt32.size := Nat.lt_of_le_of_lt hcount (by decide)
    rw [Nat.mod_eq_of_lt hsmall, if_neg (Nat.not_lt.mpr hcount)] at hread
    refine ⟨_, hread, ?_⟩
    rw [List.length_take, hlength, Nat.min_self]
  · rintro ⟨b, hb⟩
    rw [hread] at hb
    split at hb
    · cases hb
    · next hcount => exact Nat.le_of_not_lt hcount
  · rw [if_neg (Nat.not_lt.mpr hcount)] at hread
    exact ⟨_, hread⟩
  · rwa [Nat.mod_eq_of_lt hsmall, if_pos hmany] at hread

/-! ### One object too many -/

/-- As many images without pixels as a table may have entries, and another image. -/
def oversized : List Packed :=
  List.replicate maxEntries (.ofPicture .texture 0 "" "" default) ++
    [.ofPicture .texture 0 "" "" (.tabulate 2 2 fun _ _ => ⟨0, 0, 0, 255⟩)]

theorem exists_unreadable : ∃ bytes, encode oversized = .ok bytes ∧
    ofBytes "written.ab" bytes = .error (.bundleCorrupt "written" (.tableTooLarge 1048577)) := by
  have hfits : ∀ o ∈ oversized, o.TextsFit := by
    intro o ho
    rcases List.mem_append.mp ho with ho | ho
    · rw [List.eq_of_mem_replicate ho]
      exact ⟨Nat.zero_le _, Nat.zero_le _⟩
    · rw [List.mem_singleton.mp ho]
      exact ⟨Nat.zero_le _, Nat.zero_le _⟩
  have hlength : oversized.length = 1048577 := by
    rw [oversized, List.length_append, List.length_replicate]
    rfl
  have hencode := encode_eq_ok_iff.mpr ⟨hfits, rfl⟩
  refine ⟨_, hencode, ?_⟩
  rw [ofBytes_of_encode hencode, hlength]
  rfl

end CharacterArt.Bundle
