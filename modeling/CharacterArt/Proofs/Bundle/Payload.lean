import CharacterArt.Proofs.Bundle.RoundTrip

/-!
# Payloads that can be read

An entry tells where its payload lies, how long it is and how many pixels it holds, and each of these
may be wrong.  The reader checks them one after the other before it reads or decompresses anything, and
what passes its checks can be read: the file does not end within the payload, and a block that
decompresses to its pixels was never claimed to expand too far.

## Main Definitions

* `Entry.payload` — the part of a file that is the payload of an entry
* `Entry.IsReadable` — what an entry says of its payload is true

## Main Results

* `readPicture_eq` — the checks of the reader, of which the file ending early is none
* `rawSize_le_of_decode` — no block that holds its pixels fails the check of its expansion
* `exists_readPicture_iff` — the payloads that can be read, what is read from them, and how the reader
  refuses all others
-/

namespace CharacterArt.Bundle

open Text (Bytes)

variable {b : Bundle} {e : Entry}

/-- The part of a file that is the payload of an entry. -/
def Entry.payload (e : Entry) (bytes : Bytes) : Bytes :=
  (bytes.drop e.offset.toNat).take e.compressedSize.toNat

/-- What an entry says of its payload is true: the number of bytes is that of the pixels, the payload
lies within the file, and it is a block of as many bytes. -/
structure Entry.IsReadable (e : Entry) (bytes : Bytes) : Prop where
  rawSize_eq : e.rawSize.toNat = e.width.toNat * e.height.toNat * 4
  stop_le : e.stop ≤ bytes.length
  decodes : ∃ raw, Lz4.decode e.rawSize.toNat (e.payload bytes) = .ok raw ∧
    raw.length = e.rawSize.toNat

/-- A payload that lies within the file is read whole. -/
theorem slice?_payload {bytes : Bytes} (h : e.stop ≤ bytes.length) :
    Binary.slice? e.offset.toNat e.compressedSize.toNat bytes = some (e.payload bytes) ∧
      (e.payload bytes).length = e.compressedSize.toNat :=
  Binary.slice?_of_le h

/-- **The checks of the reader.**  Once the payload is known to lie within the file, reading it cannot
fail any more. -/
theorem readPicture_eq (hfile : b.bytes.length < UInt64.size) : b.readPicture e =
    if e.rawSize.toNat ≠ e.width.toNat * e.height.toNat * 4 then
      .error (.bundleCorrupt b.name
        (.rawSize e.pathId e.rawSize.toNat e.width.toNat e.height.toNat))
    else if b.bytes.length < e.stop then
      .error (.bundleCorrupt b.name (.pastEnd e.pathId e.compressedSize.toNat e.offset.toNat))
    else if maxExpansion e.compressedSize.toNat < e.rawSize.toNat then
      .error (.bundleCorrupt b.name
        (.overclaimed e.pathId e.rawSize.toNat e.compressedSize.toNat))
    else
      match Lz4.decode e.rawSize.toNat (e.payload b.bytes) with
      | .error f => .error (.decompression b.name e.pathId f.message)
      | .ok raw =>
        match Picture.ofRaw? e.width.toNat e.height.toNat raw with
        | some picture => .ok picture
        | none => .error (.bundleCorrupt b.name (.pixelMismatch e.pathId)) := by
  -- a sum that leaves 64 bits lies past the end of every file
  have hpast : (UInt64.size ≤ e.offset.toNat + e.compressedSize.toNat ∨
      b.bytes.length < e.offset.toNat + e.compressedSize.toNat) ↔ b.bytes.length < e.stop := by
    rw [Entry.stop]
    omega
  unfold readPicture
  simp only [hpast]
  refine if_congr Iff.rfl rfl ?_
  split
  · rfl
  · next hwithin =>
      exact (slice?_payload (Nat.le_of_not_lt hwithin)).1 ▸ rfl

/-- **No block that holds its pixels fails the check of its expansion**, wherever it is cut off. -/
theorem rawSize_le_of_decode {bytes raw : Bytes}
    (h : Lz4.decode e.rawSize.toNat (e.payload bytes) = .ok raw)
    (hraw : raw.length = e.rawSize.toNat) :
    e.rawSize.toNat ≤ maxExpansion e.compressedSize.toNat := by
  have hexpansion := Lz4.length_le_of_decode h
  have hpayload : (e.payload bytes).length ≤ e.compressedSize.toNat := List.length_take_le _ _
  rw [maxExpansion]
  omega

/-- What is true of a payload is read from it. -/
theorem Entry.IsReadable.exists_readPicture (h : e.IsReadable b.bytes)
    (hfile : b.bytes.length < UInt64.size) : ∃ p, b.readPicture e = .ok p := by
  obtain ⟨raw, hdecode, hraw⟩ := h.decodes
  obtain ⟨p, hp, -⟩ := Picture.exists_ofRaw? (hraw.trans h.rawSize_eq)
  refine ⟨p, ?_⟩
  rw [readPicture_eq hfile, if_neg (not_not.mpr h.rawSize_eq), if_neg (Nat.not_lt.mpr h.stop_le),
    if_neg (Nat.not_lt.mpr (rawSize_le_of_decode hdecode hraw)), hdecode]
  simp only [hp]

/-- What is read from a payload is the block that it is. -/
theorem isReadable_of_readPicture {p : Picture} (hfile : b.bytes.length < UInt64.size)
    (h : b.readPicture e = .ok p) : e.IsReadable b.bytes ∧ p.width = e.width.toNat ∧
      p.height = e.height.toNat ∧
      Lz4.decode e.rawSize.toNat (e.payload b.bytes) = .ok p.toRaw := by
  rw [readPicture_eq hfile] at h
  split at h
  · cases h
  next hsize =>
  rw [not_not] at hsize
  split at h
  · cases h
  next hwithin =>
  split at h
  · cases h
  split at h
  · cases h
  next raw hdecode =>
  -- as many bytes were decoded as there may be, or there are too few for the picture
  have hle := Lz4.length_le_capacity_of_decode hdecode
  rcases Nat.lt_or_eq_of_le hle with hshort | hraw
  · rw [Picture.ofRaw?_eq_none (hsize ▸ hshort)] at h
    cases h
  · obtain ⟨q, hq, hwidth, hheight, rfl⟩ := Picture.exists_ofRaw? (hraw.trans hsize)
    rw [hq] at h
    cases h
    exact ⟨⟨hsize, Nat.le_of_not_lt hwithin, _, hdecode, hraw⟩, hwidth, hheight, hdecode⟩

/-- **A payload can be read exactly if what its entry says of it is true**: the number of bytes is that
of the pixels, the payload ends within the file, and it is a block of just that many bytes.  The picture
then has the sides that the entry tells, and its bytes are those of the block.  All other payloads are
refused, as those of a corrupt bundle or because they cannot be decompressed; the file never ends while
a payload within it is read, and the check of the expansion refuses no block that holds its pixels. -/
theorem exists_readPicture_iff (b : Bundle) (e : Entry) (hfile : b.bytes.length < UInt64.size) :
    ((∃ p, b.readPicture e = .ok p) ↔ e.IsReadable b.bytes) ∧
    (∀ p, b.readPicture e = .ok p → p.width = e.width.toNat ∧ p.height = e.height.toNat ∧
      Lz4.decode e.rawSize.toNat (e.payload b.bytes) = .ok p.toRaw) ∧
    (∀ error, b.readPicture e = .error error → (∃ fault, error = .bundleCorrupt b.name fault) ∨
      ∃ reason, error = .decompression b.name e.pathId reason) ∧
    (e.stop ≤ b.bytes.length →
      Binary.slice? e.offset.toNat e.compressedSize.toNat b.bytes = some (e.payload b.bytes) ∧
        (e.payload b.bytes).length = e.compressedSize.toNat) ∧
    ∀ raw, Lz4.decode e.rawSize.toNat (e.payload b.bytes) = .ok raw →
      raw.length = e.rawSize.toNat → e.rawSize.toNat ≤ maxExpansion e.compressedSize.toNat := by
  refine ⟨⟨?_, fun h => h.exists_readPicture hfile⟩, ?_, ?_, slice?_payload,
    fun raw => rawSize_le_of_decode⟩
  · rintro ⟨p, hp⟩
    exact (isReadable_of_readPicture hfile hp).1
  · intro p hp
    exact (isReadable_of_readPicture hfile hp).2
  · intro error herror
    rw [readPicture_eq hfile] at herror
    split at herror
    · cases herror
      exact .inl ⟨_, rfl⟩
    split at herror
    · cases herror
      exact .inl ⟨_, rfl⟩
    split at herror
    · cases herror
      exact .inl ⟨_, rfl⟩
    split at herror
    · cases herror
      exact .inr ⟨_, rfl⟩
    split at herror
    · cases herror
    · cases herror
      exact .inl ⟨_, rfl⟩

/-! ### A block that repeats itself

The four bytes of a pixel are given, and the other seven pixels are repeated from there. -/

namespace Repeated

/-- The file: the block with a byte in front of it and one behind it. -/
def bundle : Bundle where
  name := "art"
  version := formatVersion
  entries := []
  bytes := [255] ++ [0x4F, 16, 32, 48, 64, 4, 0, 9, 0] ++ [255]

/-- The entry of the block. -/
def entry : Entry :=
  ⟨0, 1, "hero", "", 8, 1, 1, 9, 32⟩

/-- All that is asked of the block, in one evaluation. -/
theorem evaluated_block : ∀ capacity ∈ [32, 64], Lz4.decode capacity (entry.payload bundle.bytes) =
    .ok (List.replicate 8 [16, 32, 48, 64]).flatten := by
  decide +kernel

end Repeated

open Repeated in
theorem exists_readPicture_iff_repeated : bundle.bytes.length < UInt64.size ∧
    (∃ p, bundle.readPicture entry = .ok p ∧ p.width = 8 ∧ p.height = 1 ∧
      p.toRaw = (List.replicate 8 [16, 32, 48, 64]).flatten) ∧
    ¬ ∃ p, bundle.readPicture { entry with height := 2, rawSize := 64 } = .ok p := by
  have hfile : bundle.bytes.length < UInt64.size := by decide
  have hblock := evaluated_block 32 (by decide)
  obtain ⟨hreads, hread, -⟩ := exists_readPicture_iff bundle entry hfile
  obtain ⟨p, hp⟩ := hreads.mpr ⟨by decide, by decide, _, hblock, by decide⟩
  obtain ⟨hwidth, hheight, hdecode⟩ := hread p hp
  refine ⟨hfile, ⟨p, hp, hwidth, hheight, Except.ok.inj (hdecode.symm.trans hblock)⟩, fun hlarger => ?_⟩
  -- the block does not hold the pixels of two rows
  obtain ⟨-, -, raw, hraw, hlength⟩ := (exists_readPicture_iff bundle
    { entry with height := 2, rawSize := 64 } hfile).1.mp hlarger
  obtain rfl := Except.ok.inj (hraw.symm.trans (evaluated_block 64 (by decide)))
  exact absurd hlength (by decide)

end CharacterArt.Bundle
