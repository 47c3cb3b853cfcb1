/-!
# Text as bytes

Reading and writing UTF-8.  A byte sequence that is no text is refused with the place where the
text ends and the length of the stretch that cannot begin a character.

## Main Definitions

* `Bytes` — a byte sequence
* `encode` — the bytes of a text
* `decode` — the text of a byte sequence, or the `Utf8Fault` that rules it out
* `decodeLossy` — the text of any byte sequence, with a replacement for what is no text
* `Utf8Fault.message` — a fault in words

## Design Notes

The reader takes one byte at a time.  Between characters it holds no state; inside one, `Partial`
holds what the bytes so far say of it and the interval that the next byte must lie in, which for
the second byte is narrower after `E0`, `ED`, `F0` and `F4`: no overlong forms, no surrogates,
nothing beyond `10FFFF`.
-/

namespace CharacterArt.Text

/-- A byte sequence. -/
abbrev Bytes := List UInt8

/-- Why a byte sequence is no text. -/
structure Utf8Fault where
  /-- How many bytes of text precede the fault. -/
  offset : Nat
  /-- How many bytes cannot be part of a character, or `none` if the input ends inside one. -/
  width : Option Nat
  deriving DecidableEq, Repr

/-- A fault in words. -/
def Utf8Fault.message (f : Utf8Fault) : String :=
  match f.width with
  | some n =>
    "invalid utf-8 sequence of " ++ toString n ++ " bytes from index " ++ toString f.offset
  | none => "incomplete utf-8 byte sequence from index " ++ toString f.offset

namespace Utf8

/-- A character whose first bytes have been read. -/
structure Partial where
  /-- How many bytes have been read. -/
  seen : Nat
  /-- How many bytes are still owed. -/
  owed : Nat
  /-- The least value the next byte may have. -/
  low : UInt8
  /-- The greatest value the next byte may have. -/
  high : UInt8
  /-- The bits collected so far. -/
  bits : Nat
  deriving DecidableEq, Repr

/-- What a byte between two characters begins: a character of its own, or a longer one. -/
def start (b : UInt8) : Option (Char ⊕ Partial) :=
  if b < 0x80 then some (.inl (Char.ofNat b.toNat))
  else if b < 0xC2 then none
  else if b < 0xE0 then some (.inr ⟨1, 1, 0x80, 0xBF, b.toNat - 0xC0⟩)
  else if b < 0xF0 then
    some (.inr ⟨1, 2, if b = 0xE0 then 0xA0 else 0x80, if b = 0xED then 0x9F else 0xBF,
      b.toNat - 0xE0⟩)
  else if b < 0xF5 then
    some (.inr ⟨1, 3, if b = 0xF0 then 0x90 else 0x80, if b = 0xF4 then 0x8F else 0xBF,
      b.toNat - 0xF0⟩)
  else none

/-- What a byte inside a character makes of it. -/
def Partial.next (p : Partial) (b : UInt8) : Option (Char ⊕ Partial) :=
  if p.low ≤ b ∧ b ≤ p.high then
    let bits := p.bits * 64 + (b.toNat - 0x80)
    if p.owed ≤ 1 then some (.inl (Char.ofNat bits))
    else some (.inr ⟨p.seen + 1, p.owed - 1, 0x80, 0xBF, bits⟩)
  else none

/-- Read on from a place `offset` bytes into the input, where `read` holds the characters before
it backwards and `now` the character that has begun. -/
def decodeFrom (offset : Nat) (now : Option Partial) (read : List Char) :
    Bytes → Except Utf8Fault (List Char)
  | [] =>
    match now with
    | none => .ok read.reverse
    | some _ => .error ⟨offset, none⟩
  | b :: rest =>
    match now with
    | none =>
      match start b with
      | some (.inl c) => decodeFrom (offset + 1) none (c :: read) rest
      | some (.inr p) => decodeFrom offset (some p) read rest
      | none => .error ⟨offset, some 1⟩
    | some p =>
      match p.next b with
      | some (.inl c) => decodeFrom (offset + p.seen + 1) none (c :: read) rest
      | some (.inr q) => decodeFrom offset (some q) read rest
      | none => .error ⟨offset, some p.seen⟩

/-- The text of a byte sequence. -/
def decode (bytes : Bytes) : Except Utf8Fault String :=
  (decodeFrom 0 none [] bytes).map String.ofList

/-- The character that stands for bytes that cannot be part of a text. -/
def replacement : Char := '\uFFFD'

/-- Read on between two characters, with the replacement for a byte that begins none. -/
def startLossy (b : UInt8) (read : List Char) : Option Partial × List Char :=
  match start b with
  | some (.inl c) => (none, c :: read)
  | some (.inr p) => (some p, read)
  | none => (none, replacement :: read)

/-- Read on with the replacement for every stretch that cannot be part of a character. -/
def decodeLossyFrom (now : Option Partial) (read : List Char) : Bytes → List Char
  | [] =>
    match now with
    | none => read.reverse
    | some _ => (replacement :: read).reverse
  | b :: rest =>
    match now with
    | none =>
      let (now, read) := startLossy b read
      decodeLossyFrom now read rest
    | some p =>
      match p.next b with
      | some (.inl c) => decodeLossyFrom none (c :: read) rest
      | some (.inr q) => decodeLossyFrom (some q) read rest
      | none =>
        let (now, read) := startLossy b (replacement :: read)
        decodeLossyFrom now read rest

/-- The text of a byte sequence, with the replacement for what is no text. -/
def decodeLossy (bytes : Bytes) : String :=
  String.ofList (decodeLossyFrom none [] bytes)

/-- The bytes of a character. -/
def encodeChar (c : Char) : Bytes :=
  let n := c.toNat
  if n < 0x80 then [n.toUInt8]
  else if n < 0x800 then [(0xC0 + n / 64).toUInt8, (0x80 + n % 64).toUInt8]
  else if n < 0x10000 then
    [(0xE0 + n / 4096).toUInt8, (0x80 + n / 64 % 64).toUInt8, (0x80 + n % 64).toUInt8]
  else
    [(0xF0 + n / 262144).toUInt8, (0x80 + n / 4096 % 64).toUInt8, (0x80 + n / 64 % 64).toUInt8,
      (0x80 + n % 64).toUInt8]

/-- The bytes of a text. -/
def encode (s : String) : Bytes :=
  s.toList.flatMap encodeChar

end Utf8

end CharacterArt.Text
