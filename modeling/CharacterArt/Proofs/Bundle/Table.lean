import CharacterArt.Bundle.Table
import CharacterArt.Proofs.Binary
import CharacterArt.Proofs.Text.Utf8

/-!
# Object tables from their bytes

The reader takes a table back from the bytes that the writer makes of it, whatever follows them.
`Reads` says this of a reader of fields, and an entry is read because each of its fields is.

## Main Definitions

* `Reads` — a reader takes given bytes, and gives a value for them
* `Entry.TextsFit` — the texts of an entry are short enough for a table

## Main Results

* `reads_encode` — an entry is read from its bytes
* `readTable_encodeTable_eq`, `readTable_encodeTable` — what is read from the bytes of entries, and that
  a table is read from its bytes
* `length_encodeTable` — how many bytes a table has
-/

namespace CharacterArt.Bundle

open Text (Bytes)
open Binary (littleEndian ofLittleEndian splitExactly)

/-! ### Readers of fields -/

/-- A reader takes just these bytes, whatever follows them, and gives `a`. -/
def Reads {α : Type} (m : FieldReader α) (bytes : Bytes) (a : α) : Prop :=
  ∀ rest, m (bytes ++ rest) = .ok (a, rest)

namespace Reads

variable {α β : Type} {m : FieldReader α} {f : α → FieldReader β} {front back : Bytes} {a : α}
  {b : β}

theorem pure (a : α) : Reads (pure a) [] a :=
  fun _ => rfl

/-- Readers one after the other take their bytes one after the other. -/
theorem bind (hm : Reads m front a) (hf : Reads (f a) back b) :
    Reads (m >>= f) (front ++ back) b := by
  intro rest
  show Except.bind (m (front ++ back ++ rest)) (fun r => f r.1 r.2) = _
  rw [List.append_assoc, hm]
  exact hf rest

/-- The last reader of a row takes nothing. -/
theorem bind_nil (hm : Reads m front a) (hf : Reads (f a) [] b) : Reads (m >>= f) front b := by
  have h := hm.bind hf
  rwa [List.append_nil] at h

/-- A value is changed by a function. -/
theorem map (hm : Reads m front a) (g : α → β) : Reads (g <$> m) front (g a) := by
  intro rest
  show Except.bind (m (front ++ rest)) (fun r => Except.ok (g r.1, r.2)) = _
  rw [hm]
  rfl

end Reads

theorem reads_bytes (front : Bytes) : Reads (readBytes front.length) front front := by
  intro rest
  rw [readBytes, Binary.splitExactly_append rfl]

/-- **A number is read from its bytes.** -/
theorem reads_littleEndian {width n : Nat} (h : n < Nat.pow 256 width) :
    Reads (readNat width) (littleEndian width n) n := by
  have hbytes := reads_bytes (littleEndian width n)
  rw [Binary.length_littleEndian] at hbytes
  have hnat := hbytes.map ofLittleEndian
  rw [Binary.ofLittleEndian_littleEndian h] at hnat
  exact hnat

/-- **A text is read from its length and its bytes.** -/
theorem reads_encodeText {s : String} (h : s.utf8ByteSize < UInt16.size) :
    Reads readText (encodeText s) s := by
  rw [← Text.Utf8.length_encode] at h
  refine (reads_littleEndian h).bind <| (reads_bytes (Text.Utf8.encode s)).bind_nil ?_
  rw [Text.Utf8.decode_encode]
  exact Reads.pure s

/-! ### Entries -/

/-- The texts of an entry are short enough for a table. -/
def Entry.TextsFit (e : Entry) : Prop :=
  e.name.utf8ByteSize < UInt16.size ∧ e.container.utf8ByteSize < UInt16.size

/-- **An entry is read from its bytes.** -/
theorem reads_encode {e : Entry} (h : e.TextsFit) : Reads readEntry e.encode e := by
  -- one reader for each field, in the order of the table
  have htag : Reads (readNat 1) [e.tag] e.tag.toNat := by
    have h : Reads (readNat 1) (littleEndian 1 e.tag.toNat) _ := reads_littleEndian e.tag.toNat_lt
    rwa [littleEndian, littleEndian, Nat.toUInt8_eq, UInt8.ofNat_toNat] at h
  have hpathId : Reads (readNat 8) (littleEndian 8 e.pathId.toUInt64.toNat) _ :=
    reads_littleEndian e.pathId.toUInt64.toNat_lt
  have hwidth : Reads (readNat 4) (littleEndian 4 e.width.toNat) _ :=
    reads_littleEndian e.width.toNat_lt
  have hheight : Reads (readNat 4) (littleEndian 4 e.height.toNat) _ :=
    reads_littleEndian e.height.toNat_lt
  have hoffset : Reads (readNat 8) (littleEndian 8 e.offset.toNat) _ :=
    reads_littleEndian e.offset.toNat_lt
  have hcompressed : Reads (readNat 4) (littleEndian 4 e.compressedSize.toNat) _ :=
    reads_littleEndian e.compressedSize.toNat_lt
  have hraw : Reads (readNat 4) (littleEndian 4 e.rawSize.toNat) _ :=
    reads_littleEndian e.rawSize.toNat_lt
  simp only [Entry.encode, List.append_assoc]
  refine htag.bind <| hpathId.bind <| (reads_encodeText h.1).bind <| (reads_encodeText h.2).bind <|
    hwidth.bind <| hheight.bind <| hoffset.bind <| hcompressed.bind <| hraw.bind_nil ?_
  simpa using Reads.pure e

/-- The number of bytes of an entry. -/
theorem length_encode (e : Entry) :
    e.encode.length = 37 + e.name.utf8ByteSize + e.container.utf8ByteSize := by
  simp only [Entry.encode, encodeText, List.length_append, List.length_singleton,
    Binary.length_littleEndian, Text.Utf8.length_encode]
  omega

/-! ### Tables -/

/-- Entries are read one after the other. -/
theorem readEntries_flatMap {entries : List Entry} (h : ∀ e ∈ entries, e.TextsFit)
    (read : List Entry) (rest : Bytes) :
    readEntries entries.length read (entries.flatMap Entry.encode ++ rest) =
      .ok (read.reverse ++ entries) := by
  induction entries generalizing read with
  | nil =>
      rw [List.append_nil]
      rfl
  | cons e entries ih =>
      have he : readEntry (e.encode ++ (entries.flatMap Entry.encode ++ rest)) = .ok (e, _) :=
        reads_encode (h e List.mem_cons_self) _
      rw [List.length_cons, List.flatMap_cons, List.append_assoc, readEntries, he]
      show readEntries entries.length (e :: read) _ = _
      rw [ih fun e he => h e (List.mem_cons_of_mem _ he), List.reverse_cons, List.append_assoc,
        List.singleton_append]

/-- **What is read from the bytes of any entries, whatever follows them.**  The count in front of the
entries has four bytes, so of a greater number it tells what is left by the multiples of 2³².  If that
is within the limit, so many entries are read. -/
theorem readTable_encodeTable_eq {entries : List Entry} (h : ∀ e ∈ entries, e.TextsFit)
    (path name : String) (rest : Bytes) :
    readTable path name (encodeTable entries ++ rest) =
      if maxEntries < entries.length % UInt32.size then
        .error (.bundleCorrupt name (.tableTooLarge (entries.length % UInt32.size)))
      else .ok (formatVersion, entries.take (entries.length % UInt32.size)) := by
  have hmagic : magic.length = 4 := rfl
  have hlength (n : Nat) : (littleEndian 4 n).length = 4 := Binary.length_littleEndian 4 n
  have hversion : ofLittleEndian (littleEndian 4 formatVersion) = formatVersion := rfl
  have hcount : ofLittleEndian (littleEndian 4 entries.length) = entries.length % UInt32.size :=
    Binary.ofLittleEndian_littleEndian_mod 4 entries.length
  have hentries : readEntries (entries.length % UInt32.size) []
      (entries.flatMap Entry.encode ++ rest) =
        .ok (entries.take (entries.length % UInt32.size)) := by
    have hread := readEntries_flatMap
      (fun e he => h e (List.mem_of_mem_take (i := entries.length % UInt32.size) he)) []
      ((entries.drop (entries.length % UInt32.size)).flatMap Entry.encode ++ rest)
    rwa [List.length_take, Nat.min_eq_left (Nat.mod_le _ _), ← List.append_assoc,
      ← List.flatMap_append, List.take_append_drop, List.reverse_nil, List.nil_append] at hread
  simp only [readTable, encodeTable, List.append_assoc, Binary.splitExactly_append hmagic,
    Binary.splitExactly_append (hlength _), hversion, hcount, hentries, ne_eq, not_true_eq_false,
    if_false]

/-- **A table is read from its bytes, whatever follows them.** -/
theorem readTable_encodeTable {entries : List Entry} (hcount : entries.length ≤ maxEntries)
    (h : ∀ e ∈ entries, e.TextsFit) (path name : String) (rest : Bytes) :
    readTable path name (encodeTable entries ++ rest) = .ok (formatVersion, entries) := by
  have hsmall : entries.length < UInt32.size := Nat.lt_of_le_of_lt hcount (by decide)
  rw [readTable_encodeTable_eq h, Nat.mod_eq_of_lt hsmall, if_neg (Nat.not_lt.mpr hcount),
    List.take_length]

/-- **The number of bytes of a table.** -/
theorem length_encodeTable (entries : List Entry) :
    (encodeTable entries).length = 12 + (entries.flatMap Entry.encode).length := by
  rw [encodeTable, List.length_append, List.length_append, List.length_append,
    Binary.length_littleEndian, Binary.length_littleEndian]
  rfl

end CharacterArt.Bundle
