import CharacterArt.Bundle.Basic
import CharacterArt.Proofs.Bundle.Table
import CharacterArt.Proofs.Text.WrittenForm
import CharacterArt.Proofs.Traversal

/-!
# What is a bundle

The reader takes what the writer makes of a table, and nothing else, whatever follows.  So the bytes
of a table cannot stand for another table, and none of them can be missing: a file that ends within
them is told apart from every bundle.

## Main Definitions

* `IsTable` — entries that a table may have
* `Whole` — a reader of fields takes what it takes whole

## Main Results

* `entry_of_readEntry`, `entries_of_readEntries`, `table_of_readTable` — what is read is written just
  so in front of the rest
* `whole_readEntry`, `readEntries_take`, `readTable_take` — what is cut short is found to be
  truncated
* `exists_ofBytes_iff` — the files that are bundles, their tables, and the files that end too early
-/

namespace CharacterArt.Bundle

open Text (Bytes)
open Binary (littleEndian ofLittleEndian splitExactly)

section Fields

variable {α β : Type} {m : FieldReader α} {f : α → FieldReader β} {bytes rest : Bytes} {a : α}
  {b : β}

/-! ### What is read is written so -/

/-- Two readers one after the other, taken apart. -/
theorem exists_of_bind (h : (m >>= f) bytes = .ok (b, rest)) :
    ∃ a mid, m bytes = .ok (a, mid) ∧ f a mid = .ok (b, rest) := by
  have hbind : (m >>= f) bytes = Except.bind (m bytes) fun r => f r.1 r.2 := rfl
  rw [hbind] at h
  cases hm : m bytes with
  | error fault =>
      rw [hm] at h
      cases h
  | ok r =>
      rw [hm] at h
      exact ⟨r.1, r.2, rfl, h⟩

theorem bytes_of_readBytes {n : Nat} {front : Bytes} (h : readBytes n bytes = .ok (front, rest)) :
    front.length = n ∧ bytes = front ++ rest := by
  rw [readBytes] at h
  split at h
  · next r hsplit =>
      cases h
      exact (Binary.append_of_splitExactly hsplit).symm
  · cases h

/-- A number is read from its bytes only. -/
theorem number_of_readNat {width n : Nat} (h : readNat width bytes = .ok (n, rest)) :
    n < Nat.pow 256 width ∧ bytes = littleEndian width n ++ rest := by
  rw [readNat, ← bind_pure_comp] at h
  obtain ⟨front, mid, hfront, hvalue⟩ := exists_of_bind h
  cases hvalue
  obtain ⟨rfl, rfl⟩ := bytes_of_readBytes hfront
  exact ⟨Binary.ofLittleEndian_lt front, by rw [Binary.littleEndian_ofLittleEndian]⟩

/-- A number in front of other fields, taken apart. -/
theorem exists_of_readNat {width : Nat} {f : Nat → FieldReader β}
    (h : (readNat width >>= f) bytes = .ok (b, rest)) :
    ∃ n mid, n < Nat.pow 256 width ∧ bytes = littleEndian width n ++ mid ∧
      f n mid = .ok (b, rest) := by
  obtain ⟨n, mid, hn, hrest⟩ := exists_of_bind h
  obtain ⟨hsmall, hbytes⟩ := number_of_readNat hn
  exact ⟨n, mid, hsmall, hbytes, hrest⟩

/-- A text is read from its length and its bytes only. -/
theorem text_of_readText {s : String} (h : readText bytes = .ok (s, rest)) :
    s.utf8ByteSize < UInt16.size ∧ bytes = encodeText s ++ rest := by
  obtain ⟨n, mid, hsmall, rfl, hread⟩ := exists_of_readNat h
  obtain ⟨front, back, hfront, hvalue⟩ := exists_of_bind hread
  obtain ⟨rfl, rfl⟩ := bytes_of_readBytes hfront
  cases hdecode : Text.Utf8.decode front with
  | error fault =>
      rw [hdecode] at hvalue
      cases hvalue
  | ok value =>
      rw [hdecode] at hvalue
      cases hvalue
      cases Text.Utf8.decode_eq_ok_iff.mp hdecode
      rw [Text.Utf8.length_encode] at hsmall
      exact ⟨hsmall, (List.append_assoc _ _ _).symm⟩

/-- A text in front of other fields, taken apart. -/
theorem exists_of_readText {f : String → FieldReader β}
    (h : (readText >>= f) bytes = .ok (b, rest)) :
    ∃ s mid, s.utf8ByteSize < UInt16.size ∧ bytes = encodeText s ++ mid ∧
      f s mid = .ok (b, rest) := by
  obtain ⟨s, mid, hs, hrest⟩ := exists_of_bind h
  obtain ⟨hsmall, hbytes⟩ := text_of_readText hs
  exact ⟨s, mid, hsmall, hbytes, hrest⟩

/-- **An entry is read from its bytes only.** -/
theorem entry_of_readEntry {e : Entry} (h : readEntry bytes = .ok (e, rest)) :
    e.TextsFit ∧ bytes = e.encode ++ rest := by
  obtain ⟨tag, _, -, rfl, h1⟩ := exists_of_readNat h
  obtain ⟨pathId, _, hpathId, rfl, h2⟩ := exists_of_readNat h1
  obtain ⟨name, _, hname, rfl, h3⟩ := exists_of_readText h2
  obtain ⟨container, _, hcontainer, rfl, h4⟩ := exists_of_readText h3
  obtain ⟨width, _, hwidth, rfl, h5⟩ := exists_of_readNat h4
  obtain ⟨height, _, hheight, rfl, h6⟩ := exists_of_readNat h5
  obtain ⟨offset, _, hoffset, rfl, h7⟩ := exists_of_readNat h6
  obtain ⟨compressedSize, _, hcompressed, rfl, h8⟩ := exists_of_readNat h7
  obtain ⟨rawSize, _, hraw, rfl, h9⟩ := exists_of_readNat h8
  cases h9
  refine ⟨⟨hname, hcontainer⟩, ?_⟩
  -- every number is that of the field that it became
  have h64 {n : Nat} (hn : n < Nat.pow 256 8) : n.toUInt64.toNat = n := UInt64.toNat_ofNat_of_lt' hn
  have h32 {n : Nat} (hn : n < Nat.pow 256 4) : n.toUInt32.toNat = n := UInt32.toNat_ofNat_of_lt' hn
  simp only [Entry.encode, UInt64.toUInt64_toInt64, h64 hpathId, h32 hwidth, h32 hheight,
    h64 hoffset, h32 hcompressed, h32 hraw, List.append_assoc]
  rfl

/-! ### What is cut short -/

/-- Whatever a reader takes, it takes from the front, whatever follows, and finds it truncated if
its end is missing. -/
def Whole (m : FieldReader α) : Prop :=
  ∀ bytes a rest, m bytes = .ok (a, rest) → ∃ front, bytes = front ++ rest ∧ Reads m front a ∧
    ∀ n < front.length, m (front.take n) = .error .truncated

namespace Whole

theorem pure (a : α) : Whole (pure a) := by
  intro bytes a' rest h
  cases h
  exact ⟨[], rfl, Reads.pure a, nofun⟩

/-- Readers one after the other take their bytes whole if each of them does. -/
theorem bind (hm : Whole m) (hf : ∀ a, Whole (f a)) : Whole (m >>= f) := by
  intro bytes b rest h
  obtain ⟨a, mid, ha, hb⟩ := exists_of_bind h
  obtain ⟨front, rfl, hfront, hshort⟩ := hm _ _ _ ha
  obtain ⟨back, rfl, hback, hshort'⟩ := hf a _ _ _ hb
  refine ⟨front ++ back, (List.append_assoc _ _ _).symm, hfront.bind hback, fun n hn => ?_⟩
  have hbind (bytes : Bytes) : (m >>= f) bytes = Except.bind (m bytes) fun r => f r.1 r.2 := rfl
  rw [hbind, List.take_append]
  by_cases hlength : n < front.length
  · -- the end of what the first reader takes is missing
    rw [Nat.sub_eq_zero_of_le (Nat.le_of_lt hlength), List.take_zero, List.append_nil,
      hshort n hlength]
    rfl
  · rw [List.take_of_length_le (Nat.le_of_not_lt hlength), hfront]
    rw [List.length_append] at hn
    exact hshort' _ (by omega)

/-- A value is changed by a function. -/
theorem map (hm : Whole m) (g : α → β) : Whole (g <$> m) := by
  rw [← bind_pure_comp]
  exact hm.bind fun a => Whole.pure (g a)

end Whole

theorem whole_readBytes (n : Nat) : Whole (readBytes n) := by
  intro bytes front rest h
  obtain ⟨rfl, rfl⟩ := bytes_of_readBytes h
  refine ⟨front, rfl, reads_bytes front, fun n hn => ?_⟩
  have hshort : (front.take n).length < front.length := by
    rw [List.length_take]
    omega
  rw [readBytes, Binary.splitExactly_eq_none hshort]

theorem whole_readNat (width : Nat) : Whole (readNat width) :=
  (whole_readBytes width).map ofLittleEndian

theorem whole_readText : Whole readText := by
  refine (whole_readNat 2).bind fun n => (whole_readBytes n).bind fun bytes => ?_
  split
  · next s _ => exact Whole.pure s
  · intro bytes s rest h
    cases h

/-- **An entry is read whole.** -/
theorem whole_readEntry : Whole readEntry :=
  (whole_readNat 1).bind fun _ => (whole_readNat 8).bind fun _ => whole_readText.bind fun _ =>
  whole_readText.bind fun _ => (whole_readNat 4).bind fun _ => (whole_readNat 4).bind fun _ =>
  (whole_readNat 8).bind fun _ => (whole_readNat 4).bind fun _ => (whole_readNat 4).bind fun _ =>
  Whole.pure _

/-- An entry without its end is truncated. -/
theorem readEntry_take {e : Entry} (h : e.TextsFit) {n : Nat} (hn : n < e.encode.length) :
    readEntry (e.encode.take n) = .error .truncated := by
  obtain ⟨front, hfront, -, hshort⟩ := whole_readEntry _ _ _ (reads_encode h [])
  rw [List.append_cancel_right hfront] at hn ⊢
  exact hshort n hn

end Fields

/-! ### Tables -/

/-- Entries that a table may have: there are not too many, and their texts are short enough. -/
structure IsTable (entries : List Entry) : Prop where
  count : entries.length ≤ maxEntries
  fits : ∀ e ∈ entries, e.TextsFit

/-- Entries are read from their bytes only. -/
theorem entries_of_readEntries {count : Nat} {read all : List Entry} {bytes : Bytes}
    (h : readEntries count read bytes = .ok all) :
    ∃ entries rest, entries.length = count ∧ (∀ e ∈ entries, e.TextsFit) ∧
      all = read.reverse ++ entries ∧ bytes = entries.flatMap Entry.encode ++ rest := by
  induction count generalizing read bytes with
  | zero =>
      cases h
      exact ⟨[], bytes, rfl, nofun, (List.append_nil _).symm, rfl⟩
  | succ count ih =>
      rw [readEntries] at h
      split at h
      · next e mid he =>
          obtain ⟨hfits, rfl⟩ := entry_of_readEntry he
          obtain ⟨entries, rest, rfl, hall, rfl, rfl⟩ := ih h
          refine ⟨e :: entries, rest, rfl, List.forall_mem_cons.mpr ⟨hfits, hall⟩, ?_, ?_⟩
          · rw [List.reverse_cons, List.append_assoc, List.singleton_append]
          · rw [List.flatMap_cons, List.append_assoc]
      · cases h
      · cases h

/-- Entries that are cut short are truncated at the entry whose end is missing. -/
theorem readEntries_take {entries : List Entry} (h : ∀ e ∈ entries, e.TextsFit) (read : List Entry)
    {n : Nat} (hn : n < (entries.flatMap Entry.encode).length) :
    ∃ k < entries.length,
      readEntries entries.length read ((entries.flatMap Entry.encode).take n) =
        .error (.tableTruncated (read.length + k)) := by
  induction entries generalizing read n with
  | nil => cases hn
  | cons e entries ih =>
      obtain ⟨hfits, hall⟩ := List.forall_mem_cons.mp h
      rw [List.flatMap_cons, List.length_append] at hn
      rw [List.flatMap_cons, List.take_append, List.length_cons, readEntries]
      by_cases hlength : n < e.encode.length
      · -- the first entry is the one
        rw [Nat.sub_eq_zero_of_le (Nat.le_of_lt hlength), List.take_zero, List.append_nil,
          readEntry_take hfits hlength]
        exact ⟨0, Nat.succ_pos _, rfl⟩
      · have hread := reads_encode hfits ((entries.flatMap Entry.encode).take (n - e.encode.length))
        rw [List.take_of_length_le (Nat.le_of_not_lt hlength), hread]
        obtain ⟨k, hk, hfault⟩ := ih hall (e :: read) (n := n - e.encode.length) (by omega)
        refine ⟨k + 1, Nat.succ_lt_succ hk, hfault.trans ?_⟩
        rw [List.length_cons, Nat.add_right_comm, Nat.add_assoc]

/-- **A table is read from its bytes only.** -/
theorem table_of_readTable {path name : String} {bytes : Bytes} {version : Nat}
    {entries : List Entry} (h : readTable path name bytes = .ok (version, entries)) :
    version = formatVersion ∧ IsTable entries ∧ ∃ rest, bytes = encodeTable entries ++ rest := by
  rw [readTable] at h
  split at h
  · cases h
  next mark afterMark hmark =>
  split at h
  · cases h
  next hmagic =>
  split at h
  · cases h
  next versionBytes afterVersion hversion =>
  split at h
  · cases h
  next hformat =>
  split at h
  · cases h
  next countBytes afterCount hcount =>
  dsimp only at h
  split at h
  · cases h
  next hlarge =>
  split at h
  · next all hentries =>
      cases h
      obtain ⟨entries, rest, hlength, hfits, rfl, rfl⟩ := entries_of_readEntries hentries
      obtain ⟨rfl, -⟩ := Binary.append_of_splitExactly hmark
      obtain ⟨rfl, hversionLength⟩ := Binary.append_of_splitExactly hversion
      obtain ⟨rfl, hcountLength⟩ := Binary.append_of_splitExactly hcount
      have hversionBytes := Binary.littleEndian_ofLittleEndian versionBytes
      have hcountBytes := Binary.littleEndian_ofLittleEndian countBytes
      rw [hversionLength, not_not.mp hformat] at hversionBytes
      rw [hcountLength, ← hlength] at hcountBytes
      refine ⟨not_not.mp hformat, ⟨hlength ▸ Nat.le_of_not_lt hlarge, hfits⟩, rest, ?_⟩
      simp only [encodeTable, hversionBytes, hcountBytes, not_not.mp hmagic, List.append_assoc]
  · cases h

/-- **A table that is cut short is truncated**, in its header or at one of its entries. -/
theorem readTable_take {entries : List Entry} (h : IsTable entries) (path name : String) {n : Nat}
    (hn : n < (encodeTable entries).length) :
    ∃ fault, readTable path name ((encodeTable entries).take n) =
        .error (.bundleCorrupt name fault) ∧
      (fault = .headerTruncated ∨ ∃ k < entries.length, fault = .tableTruncated k) := by
  have hsmall : entries.length < Nat.pow 256 4 := Nat.lt_of_le_of_lt h.count (by decide)
  have hmagic : magic.length = 4 := rfl
  have hlength (n : Nat) : (littleEndian 4 n).length = 4 := Binary.length_littleEndian 4 n
  have hversion : ofLittleEndian (littleEndian 4 formatVersion) = formatVersion := rfl
  rw [length_encodeTable] at hn
  rw [encodeTable, List.append_assoc, List.append_assoc, readTable,
    Binary.splitExactly_take hmagic]
  by_cases h4 : n < 4
  · rw [if_pos h4]
    exact ⟨_, rfl, .inl rfl⟩
  simp only [if_neg h4, ne_eq, not_true_eq_false, if_false, Binary.splitExactly_take (hlength _)]
  by_cases h8 : n - 4 < 4
  · rw [if_pos h8]
    exact ⟨_, rfl, .inl rfl⟩
  simp only [if_neg h8, hversion, not_true_eq_false, if_false, Binary.splitExactly_take (hlength _)]
  by_cases h12 : n - 4 - 4 < 4
  · rw [if_pos h12]
    exact ⟨_, rfl, .inl rfl⟩
  simp only [if_neg h12, Binary.ofLittleEndian_littleEndian hsmall, if_neg (Nat.not_lt.mpr h.count)]
  -- the header is whole, so an entry is not
  obtain ⟨k, hk, hfault⟩ := readEntries_take h.fits [] (n := n - 4 - 4 - 4) (by omega)
  rw [hfault]
  exact ⟨_, rfl, .inr ⟨k, hk, by rw [List.length_nil, Nat.zero_add]⟩⟩

/-- **No bytes of one table are the first bytes of another.** -/
theorem eq_of_encodeTable_append {first second : List Entry} (hfirst : IsTable first)
    (hsecond : IsTable second) {rest rest' : Bytes}
    (h : encodeTable first ++ rest = encodeTable second ++ rest') : first = second := by
  have hread := readTable_encodeTable hfirst.count hfirst.fits "" "" rest
  rw [h, readTable_encodeTable hsecond.count hsecond.fits] at hread
  cases hread
  rfl

/-! ### Files -/

/-- **A file is a bundle exactly if it starts with the bytes of a table**, which are the mark,
version 1, a count of at most 2²⁰ and as many entries; anything may follow.  What the reader finds
in a bundle is that table: its bytes are the front of the file, no other table has them or begins
with them, and a file that ends within them is refused as corrupt, its header or one of its entries
being truncated. -/
theorem exists_ofBytes_iff (path : String) (bytes : Bytes) :
    ((∃ b, ofBytes path bytes = .ok b) ↔
      ∃ entries rest, IsTable entries ∧ bytes = encodeTable entries ++ rest) ∧
    ∀ b, ofBytes path bytes = .ok b →
      b.version = formatVersion ∧ IsTable b.entries ∧ encodeTable b.entries <+: bytes ∧
      (∀ entries, IsTable entries → encodeTable entries <+: bytes → entries = b.entries) ∧
      (∀ entries, IsTable entries → encodeTable entries <+: encodeTable b.entries →
        entries = b.entries) ∧
      ∀ n < (encodeTable b.entries).length, ∃ fault,
        ofBytes path (bytes.take n) = .error (.bundleCorrupt b.name fault) ∧
        (fault = .headerTruncated ∨ ∃ k < b.entries.length, fault = .tableTruncated k) := by
  have hopened : ∀ entries rest, IsTable entries → bytes = encodeTable entries ++ rest →
      ofBytes path bytes = .ok ⟨(Path.stem path).getD "", formatVersion, entries, bytes⟩ := by
    rintro entries rest htable rfl
    rw [ofBytes, readTable_encodeTable htable.count htable.fits]
    rfl
  have hunique : ∀ first second, IsTable first → IsTable second →
      encodeTable first <+: encodeTable second → first = second := by
    rintro first second hfirst hsecond ⟨more, hmore⟩
    exact eq_of_encodeTable_append hfirst hsecond (hmore.trans (List.append_nil _).symm)
  refine ⟨⟨?_, ?_⟩, ?_⟩
  · rintro ⟨b, h⟩
    obtain ⟨⟨version, entries⟩, hread, -⟩ := map_eq_ok_iff.mp h
    obtain ⟨-, htable, rest, hbytes⟩ := table_of_readTable hread
    exact ⟨entries, rest, htable, hbytes⟩
  · rintro ⟨entries, rest, htable, hbytes⟩
    exact ⟨_, hopened entries rest htable hbytes⟩
  · intro b h
    obtain ⟨⟨version, entries⟩, hread, rfl⟩ := map_eq_ok_iff.mp h
    obtain ⟨hversion, htable, rest, hbytes⟩ := table_of_readTable hread
    refine ⟨hversion, htable, ⟨rest, hbytes.symm⟩, ?_, fun other hother => hunique _ _ hother htable,
      fun n hn => ?_⟩
    · rintro other hother ⟨more, hmore⟩
      exact eq_of_encodeTable_append hother htable (hmore.trans hbytes)
    · obtain ⟨fault, hfault, hcut⟩ := readTable_take htable path ((Path.stem path).getD "") hn
      refine ⟨fault, ?_, hcut⟩
      rw [hbytes, List.take_append_of_le_length (Nat.le_of_lt hn), ofBytes, hfault]
      rfl

example :
    let bytes := encodeTable [⟨0, -7, "größe", "", 1, 1, 56, 5, 4⟩] ++ [0, 1]
    (ofBytes "art.ab" bytes).map Bundle.entries = .ok [⟨0, -7, "größe", "", 1, 1, 56, 5, 4⟩] ∧
      ofBytes "art.ab" (bytes.take 55) = .error (.bundleCorrupt "art" (.tableTruncated 0)) := by
  decide

end CharacterArt.Bundle
