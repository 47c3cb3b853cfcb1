import CharacterArt.Text.Utf8

/-!
# Numbers as bytes

Fixed-width numbers with the least significant byte first.

## Main Definitions

* `littleEndian` — the bytes of a number
* `ofLittleEndian` — the number of a byte sequence
* `splitExactly` — the first bytes of a sequence and the rest, if there are that many
* `slice?` — the bytes from a place on, if there are that many
-/

namespace CharacterArt.Binary

open Text (Bytes)

/-- The `width` low bytes of a number, least significant first. -/
def littleEndian : (width : Nat) → Nat → Bytes
  | 0, _ => []
  | width + 1, n => n.toUInt8 :: littleEndian width (n / 256)

/-- The number that bytes spell, least significant first. -/
def ofLittleEndian : Bytes → Nat
  | [] => 0
  | b :: rest => b.toNat + 256 * ofLittleEndian rest

/-- The first `n` bytes and the rest, if there are that many. -/
def splitExactly : (n : Nat) → Bytes → Option (Bytes × Bytes)
  | 0, bytes => some ([], bytes)
  | _ + 1, [] => none
  | n + 1, b :: rest => (splitExactly n rest).map fun (front, back) => (b :: front, back)

/-- The `n` bytes from the place `offset` on, if there are that many. -/
def slice? (offset n : Nat) (bytes : Bytes) : Option Bytes :=
  let slice := (bytes.drop offset).take n
  if slice.length = n then some slice else none

end CharacterArt.Binary
