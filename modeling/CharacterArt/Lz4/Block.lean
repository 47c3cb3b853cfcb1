import CharacterArt.Binary

/-!
# LZ4 blocks

A block is a chain of sequences.  Each one holds literal bytes and then a match, which repeats
bytes of the output so far; the last one holds literals alone.

## Main Definitions

* `Lz4.Fault` — what is wrong with a block
* `Lz4.copyBack` — a match
* `Lz4.decode` — the bytes of a block, of which there may not be more than a given number

## Design Notes

A match may overlap the bytes that it adds, so `copyBack` adds one byte at a time: with distance
one it repeats the last byte.  The fuel of `decodeFrom` is the length of the block, and every
sequence takes at least its token from it.
-/

namespace CharacterArt.Lz4

open Text (Bytes)
open Binary (splitExactly)

/-- What is wrong with a block. -/
inductive Fault where
  /-- The block ends where a token, a length or a distance should stand. -/
  | byteMissing
  /-- The block ends inside literals. -/
  | literalsMissing
  /-- A match starts before the first byte, or has no distance. -/
  | distance
  /-- The bytes are more than there may be. -/
  | overflow
  deriving DecidableEq, Repr

/-- A fault in words. -/
def Fault.message : Fault → String
  | byteMissing => "expected another byte"
  | literalsMissing => "literal out of bounds"
  | distance => "offset out of bounds"
  | overflow => "output too small"

/-- The rest of a length: bytes that add up, of which the last is below 255. -/
def readLength (length : Nat) : Bytes → Except Fault (Nat × Bytes)
  | [] => .error .byteMissing
  | b :: rest =>
    if b = 255 then readLength (length + 255) rest else .ok (length + b.toNat, rest)

/-- A length of which four bits stand in the token. -/
def lengthFrom (nibble : Nat) (bytes : Bytes) : Except Fault (Nat × Bytes) :=
  if nibble = 15 then readLength 15 bytes else .ok (nibble, bytes)

/-- Output with `length` bytes repeated from `distance` bytes before its end. -/
def copyBack (distance : Nat) : (length : Nat) → Array UInt8 → Array UInt8
  | 0, out => out
  | length + 1, out => copyBack distance length (out.push (out.getD (out.size - distance) 0))

/-- Least length of a match. -/
def minMatch : Nat := 4

/-- Decode the sequences of a block after those that gave `out`. -/
def decodeFrom (capacity : Nat) : (fuel : Nat) → Array UInt8 → Bytes → Except Fault (Array UInt8)
  | 0, _, _ => .error .byteMissing
  | _ + 1, _, [] => .error .byteMissing
  | fuel + 1, out, token :: bytes =>
    match lengthFrom (token.toNat / 16) bytes with
    | .error f => .error f
    | .ok (literals, bytes) =>
      match splitExactly literals bytes with
      | none => .error .literalsMissing
      | some (front, bytes) =>
        if capacity < out.size + literals then .error .overflow
        else
          let out := out ++ front.toArray
          match bytes with
          | [] => .ok out
          | [_] => .error .byteMissing
          | low :: high :: bytes =>
            let distance := low.toNat + 256 * high.toNat
            match lengthFrom (token.toNat % 16) bytes with
            | .error f => .error f
            | .ok (length, bytes) =>
              if distance = 0 ∨ out.size < distance then .error .distance
              else if capacity < out.size + (length + minMatch) then .error .overflow
              else decodeFrom capacity fuel (copyBack distance (length + minMatch) out) bytes

/-- The bytes of a block, at most `capacity`. -/
def decode (capacity : Nat) (block : Bytes) : Except Fault Bytes :=
  (decodeFrom capacity (block.length + 1) #[] block).map Array.toList

end CharacterArt.Lz4
