import CharacterArt.Bundle.Basic
import CharacterArt.Bundle.Writer
import CharacterArt.Proofs.Bundle.Table
import CharacterArt.Proofs.Lz4.Expansion
import CharacterArt.Proofs.Picture

/-!
# Bundles from their files

What is written into a bundle is what a reader of the file finds: the table lists the objects in the
order in which they were added, the payloads fill the file behind it without gaps, and the pixels of
every image come back.

Compression is a parameter here.  All that is asked of it is that decompression brings the pixels of
the images at hand back.

## Main Definitions

* `Addition`, `Addition.pack` — an object that is added to a bundle, and how it is packed
* `Packed.TextsFit` — the texts of an object are short enough for a table
* `Addition.Fits`, `Addition.Restores` — its sizes fit a table, and its pixels come back
* `Tiles` — payloads lie one after the other between two places of a file

## Main Results

* `Tiles.pairwise` — payloads that lie one after the other do not overlap
* `encode_eq_ok_iff` — which objects a file is made of
* `decode_entryAt` — an entry is decoded to the object that was added
* `exists_ofBytes_encode` — a bundle is read back from its file
-/

namespace CharacterArt.Bundle

open Text (Bytes)

/-! ### Places of payloads -/

/-- Where in the file the payload of an entry ends. -/
def Entry.stop (e : Entry) : Nat :=
  e.offset.toNat + e.compressedSize.toNat

/-- The payloads of entries lie one after the other, the first one at `start` and the last one up to
`stop`. -/
def Tiles : (start : Nat) → List Entry → (stop : Nat) → Prop
  | start, [], stop => start = stop
  | start, e :: rest, stop => e.offset.toNat = start ∧ Tiles e.stop rest stop

namespace Tiles

variable {start stop : Nat} {entries : List Entry}

/-- No payload starts before the first one. -/
theorem le_offset (h : Tiles start entries stop) : ∀ e ∈ entries, start ≤ e.offset.toNat := by
  induction entries generalizing start with
  | nil => exact fun e he => absurd he List.not_mem_nil
  | cons first rest ih =>
      obtain ⟨hfirst, hrest⟩ := h
      intro e he
      rcases List.mem_cons.mp he with rfl | he
      · exact Nat.le_of_eq hfirst.symm
      · have hle := ih hrest e he
        rw [Entry.stop] at hle
        omega

/-- **Payloads that lie one after the other do not overlap.** -/
theorem pairwise (h : Tiles start entries stop) :
    entries.Pairwise fun e f => e.stop ≤ f.offset.toNat := by
  induction entries generalizing start with
  | nil => exact List.Pairwise.nil
  | cons first rest ih => exact List.pairwise_cons.mpr ⟨h.2.le_offset, ih h.2⟩

end Tiles

/-! ### Objects that are added -/

/-- The texts of an object are short enough for a table. -/
def Packed.TextsFit (o : Packed) : Prop :=
  o.name.utf8ByteSize ≤ maxTextSize ∧ o.container.utf8ByteSize ≤ maxTextSize

/-- An object that is added to a bundle. -/
inductive Addition where
  | image (kind : AssetKind) (pathId : PathId) (name container : String) (picture : Picture)
  | other (pathId : PathId) (name container : String)

/-- What the table of a bundle tells of an object. -/
structure Description where
  tag : UInt8
  pathId : PathId
  name : String
  container : String
  width : Nat
  height : Nat

/-- What an entry tells of its object. -/
def Entry.description (e : Entry) : Description :=
  ⟨e.tag, e.pathId, e.name, e.container, e.width.toNat, e.height.toNat⟩

namespace Addition

/-- How an object is packed, with `compress` for its pixels. -/
def pack (compress : Bytes → Bytes) : Addition → Packed
  | image kind pathId name container picture =>
    .ofPictureWith compress kind pathId name container picture
  | other pathId name container => .other pathId name container

/-- What the table should tell of an object. -/
def description : Addition → Description
  | image kind pathId name container picture =>
    ⟨kind.tag, pathId, name, container, picture.width, picture.height⟩
  | other pathId name container => ⟨Packed.otherTag, pathId, name, container, 0, 0⟩

/-- What an object in a bundle should be decoded to. -/
def decoded (bundle : String) : Addition → Except Error Asset
  | image kind pathId name container picture =>
    .ok ⟨pathId, name, kind, bundle, container, picture⟩
  | other pathId _ _ => .error (.objectNotFound bundle pathId)

/-- The texts, the sides, the pixels and the payload of an object have sizes that a table can
tell. -/
def Fits (compress : Bytes → Bytes) : Addition → Prop
  | image _ _ name container picture =>
    name.utf8ByteSize ≤ Packed.maxTextSize ∧ container.utf8ByteSize ≤ Packed.maxTextSize ∧
      picture.width < UInt32.size ∧ picture.height < UInt32.size ∧
      picture.toRaw.length < UInt32.size ∧ (compress picture.toRaw).length < UInt32.size
  | other _ name container =>
    name.utf8ByteSize ≤ Packed.maxTextSize ∧ container.utf8ByteSize ≤ Packed.maxTextSize

/-- Decompression brings the pixels of an object back. -/
def Restores (compress : Bytes → Bytes) : Addition → Prop
  | image _ _ _ _ picture =>
    Lz4.decode picture.toRaw.length (compress picture.toRaw) = .ok picture.toRaw
  | other _ _ _ => True

end Addition

instance Addition.decidableFits (compress : Bytes → Bytes) :
    (a : Addition) → Decidable (a.Fits compress)
  | image _ _ _ _ _ => inferInstanceAs (Decidable (_ ∧ _))
  | other _ _ _ => inferInstanceAs (Decidable (_ ∧ _))

instance Addition.decidableRestores (compress : Bytes → Bytes) :
    (a : Addition) → Decidable (a.Restores compress)
  | image _ _ _ _ _ => inferInstanceAs (Decidable (_ = _))
  | other _ _ _ => inferInstanceAs (Decidable True)

namespace Addition

variable {compress : Bytes → Bytes} {a : Addition}

/-- The payload of an object that fits is short enough. -/
theorem Fits.length_payload (h : a.Fits compress) :
    (a.pack compress).payload.length < UInt32.size := by
  cases a with
  | image _ _ _ _ picture => exact h.2.2.2.2.2
  | other _ _ _ => exact Nat.zero_lt_succ _

/-- The texts of an object that fits are short enough. -/
theorem Fits.textsFit (h : a.Fits compress) : (a.pack compress).TextsFit := by
  cases a with
  | image _ _ _ _ _ => exact ⟨h.1, h.2.1⟩
  | other _ _ _ => exact h

/-- **The entry of an object that fits tells what was added.** -/
theorem Fits.description_entryAt (h : a.Fits compress) (offset : Nat) :
    ((a.pack compress).entryAt offset).description = a.description := by
  cases a with
  | image kind pathId name container picture =>
      have hwidth : picture.width.toUInt32.toNat = picture.width :=
        UInt32.toNat_ofNat_of_lt' h.2.2.1
      have hheight : picture.height.toUInt32.toNat = picture.height :=
        UInt32.toNat_ofNat_of_lt' h.2.2.2.1
      show Description.mk kind.tag pathId name container picture.width.toUInt32.toNat
        picture.height.toUInt32.toNat = _
      rw [hwidth, hheight]
      rfl
  | other pathId name container => rfl

/-- The pixels of an image that fits are found where its entry says. -/
theorem Fits.readPicture_entryAt {kind : AssetKind} {pathId : PathId} {name container : String}
    {picture : Picture} (h : (image kind pathId name container picture).Fits compress)
    (hrestores : (image kind pathId name container picture).Restores compress) {b : Bundle}
    {front back : Bytes} (hbytes : b.bytes = front ++ (compress picture.toRaw ++ back))
    (hfront : b.bytes.length < UInt64.size) :
    b.readPicture (((image kind pathId name container picture).pack compress).entryAt
      front.length) = .ok picture := by
  obtain ⟨-, -, hwidth, hheight, hraw, hpayload⟩ := h
  have hlength : b.bytes.length =
      front.length + ((compress picture.toRaw).length + back.length) := by
    rw [hbytes, List.length_append, List.length_append]
  -- pixels that come back cannot have been compressed too far for the reader
  have hexpansion := Lz4.length_le_of_decode hrestores
  have hwindow : (b.bytes.drop front.length).take (compress picture.toRaw).length =
      compress picture.toRaw := by
    rw [hbytes, List.drop_left, List.take_left]
  have hwidth' : picture.width.toUInt32.toNat = picture.width := UInt32.toNat_ofNat_of_lt' hwidth
  have hheight' : picture.height.toUInt32.toNat = picture.height :=
    UInt32.toNat_ofNat_of_lt' hheight
  have hraw' : picture.toRaw.length.toUInt32.toNat = picture.toRaw.length :=
    UInt32.toNat_ofNat_of_lt' hraw
  have hpayload' : (compress picture.toRaw).length.toUInt32.toNat =
      (compress picture.toRaw).length := UInt32.toNat_ofNat_of_lt' hpayload
  have hoffset : front.length.toUInt64.toNat = front.length :=
    UInt64.toNat_ofNat_of_lt' (show front.length < UInt64.size by omega)
  simp only [readPicture, pack, Packed.entryAt, Packed.ofPictureWith, hwidth', hheight', hraw',
    hpayload', hoffset]
  -- the checks of the reader: the number of pixels, the end of the file, the expansion
  rw [if_neg (not_not.mpr picture.length_toRaw), if_neg (by omega),
    if_neg (by rw [maxExpansion]; omega), (Binary.slice?_of_le (by omega)).1, hwindow]
  dsimp only
  rw [hrestores]
  simp only [Picture.ofRaw?_toRaw]

/-- **An entry is decoded to the object that was added.** -/
theorem Fits.decode_entryAt (h : a.Fits compress) (hrestores : a.Restores compress) {b : Bundle}
    {front back : Bytes} (hbytes : b.bytes = front ++ ((a.pack compress).payload ++ back))
    (hlength : b.bytes.length < UInt64.size) :
    b.decode ((a.pack compress).entryAt front.length) = a.decoded b.name := by
  cases a with
  | image kind pathId name container picture =>
      have hkind : (((image kind pathId name container picture).pack compress).entryAt
          front.length).kind? = some kind := AssetKind.ofTag?_tag kind
      simp only [decode, hkind, h.readPicture_entryAt hrestores hbytes hlength]
      rfl
  | other pathId name container => rfl

end Addition

/-! ### The table -/

section Table

variable {compress : Bytes → Bytes} {objects : List Packed} {additions : List Addition}

theorem length_entriesFrom (offset : Nat) :
    (entriesFrom offset objects).length = objects.length := by
  induction objects generalizing offset with
  | nil => rfl
  | cons o rest ih => rw [entriesFrom, List.length_cons, List.length_cons, ih]

/-- The number of bytes of the entries is known before their offsets are. -/
theorem length_flatMap_entriesFrom (offset : Nat) :
    ((entriesFrom offset objects).flatMap Entry.encode).length = entriesSize objects := by
  induction objects generalizing offset with
  | nil => rfl
  | cons o rest ih =>
      rw [entriesFrom, List.flatMap_cons, List.length_append, ih, length_encode]
      rfl

/-- **The first payload starts right behind the table.** -/
theorem length_encodeTable_tableOf (objects : List Packed) :
    (encodeTable (tableOf objects)).length = headerSize + entriesSize objects := by
  rw [length_encodeTable, tableOf, length_flatMap_entriesFrom]
  rfl

/-- **The payloads lie one after the other.** -/
theorem tiles_entriesFrom {offset : Nat} (hpayload : ∀ o ∈ objects, o.payload.length < UInt32.size)
    (hstop : offset + (objects.flatMap Packed.payload).length < UInt64.size) :
    Tiles offset (entriesFrom offset objects)
      (offset + (objects.flatMap Packed.payload).length) := by
  induction objects generalizing offset with
  | nil => rfl
  | cons o rest ih =>
      rw [List.flatMap_cons, List.length_append, ← Nat.add_assoc] at hstop ⊢
      have hoffset : offset.toUInt64.toNat = offset :=
        UInt64.toNat_ofNat_of_lt' (show offset < UInt64.size by omega)
      have hsize : o.payload.length.toUInt32.toNat = o.payload.length :=
        UInt32.toNat_ofNat_of_lt' (hpayload o List.mem_cons_self)
      refine ⟨hoffset, ?_⟩
      have hstart : (o.entryAt offset).stop = offset + o.payload.length := by
        rw [Entry.stop, Packed.entryAt, hoffset, hsize]
      rw [hstart]
      exact ih (fun o ho => hpayload o (List.mem_cons_of_mem _ ho)) hstop

/-- The writer refuses the objects whose texts are too long, and no others. -/
theorem tooLong?_eq_none_iff : tooLong? objects = none ↔ ∀ o ∈ objects, o.TextsFit := by
  simp only [tooLong?, List.find?_eq_none, List.mem_flatMap, List.mem_cons, List.not_mem_nil, or_false,
    decide_eq_true_eq, Nat.not_lt]
  constructor
  · exact fun h o ho => ⟨h _ ⟨o, ho, .inl rfl⟩, h _ ⟨o, ho, .inr rfl⟩⟩
  · rintro h text ⟨o, ho, rfl | rfl⟩
    · exact (h o ho).1
    · exact (h o ho).2

/-- The entries of objects with short texts have short texts. -/
theorem textsFit_of_mem_entriesFrom (h : ∀ o ∈ objects, o.TextsFit) {offset : Nat} :
    ∀ e ∈ entriesFrom offset objects, e.TextsFit := by
  induction objects generalizing offset with
  | nil => exact fun e he => absurd he List.not_mem_nil
  | cons o rest ih =>
      obtain ⟨⟨hname, hcontainer⟩, hrest⟩ := List.forall_mem_cons.mp h
      exact List.forall_mem_cons.mpr ⟨⟨Nat.lt_succ_of_le hname, Nat.lt_succ_of_le hcontainer⟩, ih hrest⟩

/-- The texts of additions that fit are short enough. -/
theorem forall_textsFit (hfits : ∀ a ∈ additions, a.Fits compress) :
    ∀ o ∈ additions.map (Addition.pack compress), o.TextsFit :=
  List.forall_mem_map.mpr fun a ha => (hfits a ha).textsFit

/-- **The entries tell what was added.** -/
theorem map_description_entriesFrom (hfits : ∀ a ∈ additions, a.Fits compress) (offset : Nat) :
    (entriesFrom offset (additions.map (Addition.pack compress))).map Entry.description =
      additions.map Addition.description := by
  induction additions generalizing offset with
  | nil => rfl
  | cons a rest ih =>
      rw [List.map_cons, entriesFrom, List.map_cons, List.map_cons,
        (hfits a List.mem_cons_self).description_entryAt,
        ih fun a ha => hfits a (List.mem_cons_of_mem _ ha)]

/-- **The entries are decoded to what was added.** -/
theorem map_decode_entriesFrom (hfits : ∀ a ∈ additions, a.Fits compress)
    (hrestores : ∀ a ∈ additions, a.Restores compress) {b : Bundle} {front : Bytes}
    (hbytes : b.bytes =
      front ++ (additions.map (Addition.pack compress)).flatMap Packed.payload)
    (hlength : b.bytes.length < UInt64.size) :
    (entriesFrom front.length (additions.map (Addition.pack compress))).map b.decode =
      additions.map (Addition.decoded b.name) := by
  induction additions generalizing front with
  | nil => rfl
  | cons a rest ih =>
      rw [List.map_cons, List.flatMap_cons] at hbytes
      have hfirst := (hfits a List.mem_cons_self).decode_entryAt
        (hrestores a List.mem_cons_self) hbytes hlength
      rw [← List.append_assoc] at hbytes
      have hrest := ih (fun a ha => hfits a (List.mem_cons_of_mem _ ha))
        (fun a ha => hrestores a (List.mem_cons_of_mem _ ha)) hbytes
      rw [List.length_append] at hrest
      rw [List.map_cons, entriesFrom, List.map_cons, List.map_cons, hfirst, hrest]

/-- A bound for the entries and the payloads of additions that fit. -/
theorem sizes_le (hfits : ∀ a ∈ additions, a.Fits compress) :
    entriesSize (additions.map (Addition.pack compress)) +
        ((additions.map (Addition.pack compress)).flatMap Packed.payload).length ≤
      additions.length * (Packed.fixedSize + 2 * Packed.maxTextSize + UInt32.size) := by
  induction additions with
  | nil => exact Nat.zero_le _
  | cons a rest ih =>
      have hrest := ih fun a ha => hfits a (List.mem_cons_of_mem _ ha)
      have hpayload := (hfits a List.mem_cons_self).length_payload
      obtain ⟨hname, hcontainer⟩ := (hfits a List.mem_cons_self).textsFit
      rw [List.map_cons, entriesSize, List.flatMap_cons, List.length_append, List.length_cons,
        Nat.succ_mul, Packed.entrySize]
      omega

end Table

/-! ### The file -/

/-- The file with given objects, without a check of their texts. -/
def file (objects : List Packed) : Bytes :=
  encodeTable (tableOf objects) ++ objects.flatMap Packed.payload

section File

variable {compress : Bytes → Bytes} {additions : List Addition} {objects : List Packed}

/-- **A file is made of objects exactly if their texts are short enough.** -/
theorem encode_eq_ok_iff {bytes : Bytes} :
    encode objects = .ok bytes ↔ (∀ o ∈ objects, o.TextsFit) ∧ bytes = file objects := by
  rw [encode, ← tooLong?_eq_none_iff]
  cases tooLong? objects with
  | none => exact ⟨fun h => ⟨rfl, (Except.ok.inj h).symm⟩, fun h => congrArg _ h.2.symm⟩
  | some text => exact ⟨nofun, nofun⟩

theorem encode_pack (hfits : ∀ a ∈ additions, a.Fits compress) :
    encode (additions.map (Addition.pack compress)) =
      .ok (file (additions.map (Addition.pack compress))) :=
  encode_eq_ok_iff.mpr ⟨forall_textsFit hfits, rfl⟩

theorem ofBytes_file (hcount : additions.length ≤ maxEntries)
    (hfits : ∀ a ∈ additions, a.Fits compress) (path : String) :
    ofBytes path (file (additions.map (Addition.pack compress))) =
      .ok ⟨(Path.stem path).getD "", 1, tableOf (additions.map (Addition.pack compress)),
        file (additions.map (Addition.pack compress))⟩ := by
  have hcount' : (tableOf (additions.map (Addition.pack compress))).length ≤ maxEntries := by
    rwa [tableOf, length_entriesFrom, List.length_map]
  rw [ofBytes, file, readTable_encodeTable hcount'
    (textsFit_of_mem_entriesFrom (forall_textsFit hfits))]
  rfl

/-- The offsets in a file with as many objects as a table may have are far from too large. -/
theorem length_file_lt (hcount : additions.length ≤ maxEntries)
    (hfits : ∀ a ∈ additions, a.Fits compress) :
    (file (additions.map (Addition.pack compress))).length < UInt64.size := by
  have hsizes := sizes_le hfits
  -- 2²⁰ objects of 2³² bytes stay below 2⁶⁴
  have hmany : additions.length * (Packed.fixedSize + 2 * Packed.maxTextSize + UInt32.size) ≤
      1048576 * (37 + 2 * 65535 + 4294967296) := Nat.mul_le_mul_right _ hcount
  rw [file, List.length_append, length_encodeTable_tableOf, headerSize]
  show _ < 18446744073709551616
  omega

/-- **The payloads fill the file behind the table.** -/
theorem tiles_file (hcount : additions.length ≤ maxEntries)
    (hfits : ∀ a ∈ additions, a.Fits compress) :
    Tiles (encodeTable (tableOf (additions.map (Addition.pack compress)))).length
      (tableOf (additions.map (Addition.pack compress)))
      (file (additions.map (Addition.pack compress))).length := by
  have hlength := length_file_lt hcount hfits
  rw [file, List.length_append, length_encodeTable_tableOf] at hlength ⊢
  refine tiles_entriesFrom (fun o ho => ?_) hlength
  obtain ⟨a, ha, rfl⟩ := List.mem_map.mp ho
  exact (hfits a ha).length_payload

end File

/-- **A bundle is read back from its file.**  The file of at most 2²⁰ objects whose sizes fit a
table can be made, and every reader of it finds version 1, a table that tells of the objects in the
order in which they were added, and payloads that fill the file behind the table without gaps or
overlaps.  Every image is decoded to what was added, and every other object is refused. -/
theorem exists_ofBytes_encode {compress : Bytes → Bytes} {additions : List Addition}
    (hcount : additions.length ≤ maxEntries) (hfits : ∀ a ∈ additions, a.Fits compress)
    (hrestores : ∀ a ∈ additions, a.Restores compress) (path : String) :
    ∃ bytes b, encode (additions.map (Addition.pack compress)) = .ok bytes ∧
      ofBytes path bytes = .ok b ∧ b.version = 1 ∧
      b.entries.map Entry.description = additions.map Addition.description ∧
      encodeTable b.entries <+: bytes ∧
      Tiles (encodeTable b.entries).length b.entries bytes.length ∧
      (b.entries.Pairwise fun e f => e.stop ≤ f.offset.toNat) ∧
      b.entries.map b.decode = additions.map (Addition.decoded b.name) := by
  have hdecode := map_decode_entriesFrom hfits hrestores
    (b := ⟨(Path.stem path).getD "", 1, tableOf (additions.map (Addition.pack compress)),
      file (additions.map (Addition.pack compress))⟩) rfl (length_file_lt hcount hfits)
  rw [length_encodeTable_tableOf] at hdecode
  exact ⟨_, _, encode_pack hfits, ofBytes_file hcount hfits path, rfl,
    map_description_entriesFrom hfits _, List.prefix_append _ _, tiles_file hcount hfits,
    (tiles_file hcount hfits).pairwise, hdecode⟩

/-- A flat sprite, another object and a texture without pixels. -/
def mixed : List Addition :=
  [.image .sprite (-7) "flat" "art/flat.png" (.tabulate 3 1 fun _ _ => ⟨1, 2, 3, 255⟩),
    .other 5 "node" "",
    .image .texture 7 "größe" "" default]

theorem exists_ofBytes_encode_mixed :
    ∃ bytes b, encode (mixed.map (Addition.pack Lz4.compress)) = .ok bytes ∧
      ofBytes "bundles/a.ab" bytes = .ok b ∧ b.version = 1 ∧
      b.entries.map Entry.description =
        [⟨1, -7, "flat", "art/flat.png", 3, 1⟩, ⟨2, 5, "node", "", 0, 0⟩,
          ⟨0, 7, "größe", "", 0, 0⟩] ∧
      encodeTable b.entries <+: bytes ∧
      Tiles (encodeTable b.entries).length b.entries bytes.length ∧
      (b.entries.Pairwise fun e f => e.stop ≤ f.offset.toNat) ∧
      b.entries.map b.decode =
        [.ok ⟨-7, "flat", .sprite, b.name, "art/flat.png", .tabulate 3 1 fun _ _ => ⟨1, 2, 3, 255⟩⟩,
          .error (.objectNotFound b.name 5), .ok ⟨7, "größe", .texture, b.name, "", default⟩] :=
  exists_ofBytes_encode (by decide) (by decide) (by decide) "bundles/a.ab"

end CharacterArt.Bundle
