import CharacterArt.Lz4.Block

/-!
# Compressing into LZ4 blocks

A greedy search for matches with one table of places, indexed by a hash of the bytes there.

## Main Definitions

* `Lz4.Search` — the hash and the table that a search works with
* `Lz4.compress` — a block with given bytes

## Design Notes

The compressor walks over the input with a cursor.  Where the table knows an earlier place with the
same four bytes, at most 65535 bytes away, the bytes since the last match become literals and the
match is extended to both sides.  Every 32 misses in a row the cursor starts to take larger steps.
No match starts in the last 12 bytes or reaches into the last 6, as readers of blocks expect.
-/

namespace CharacterArt.Lz4

open Text (Bytes)
open Binary (ofLittleEndian)

/-- How far from the end the last match has to start. -/
def matchMargin : Nat := 12

/-- How far from the end the last match has to stop. -/
def literalMargin : Nat := 6

/-- The greatest distance of a match. -/
def maxDistance : Nat := 65535

/-- `width` bytes from place `i` as a number. -/
def window (input : Array UInt8) (width i : Nat) : Nat :=
  ofLittleEndian ((List.range width).map fun k => input.getD (i + k) 0)

/-- The slot of the table for the bytes at a place: of short inputs four bytes are hashed, of long
ones five. -/
def slot (input : Array UInt8) (i : Nat) : Nat :=
  if input.size < 65535 then
    ((window input 4 i * 2654435761 % UInt32.size) >>> 16) / 16
  else
    (((window input 8 i <<< 24) % UInt64.size * 889523592379 % UInt64.size) >>> 48) / 16

/-- The bytes of the part of a length that does not fit a token. -/
def encodeLength (n : Nat) : Bytes :=
  List.replicate (n / 255) 255 ++ [(n % 255).toUInt8]

/-- The four bits of a length in the token. -/
def nibble (n : Nat) : Nat := min n 15

/-- The bytes of a length after the token. -/
def encodeRest (n : Nat) : Bytes :=
  if n < 15 then [] else encodeLength (n - 15)

/-- The sequence that ends a block. -/
def encodeLast (literals : Bytes) : Bytes :=
  (nibble literals.length * 16).toUInt8 :: (encodeRest literals.length ++ literals)

/-- A sequence of literals and a match that is `extra` bytes longer than the least one. -/
def encodeSequence (literals : Bytes) (distance extra : Nat) : Bytes :=
  (nibble literals.length * 16 + nibble extra).toUInt8 ::
    (encodeRest literals.length ++ literals ++ Binary.littleEndian 2 distance ++ encodeRest extra)

/-- How many steps a match can be extended backwards. -/
def backward (input : Array UInt8) (start : Nat) : (cursor candidate : Nat) → Nat
  | cursor + 1, candidate + 1 =>
    if start ≤ cursor ∧ input.getD cursor 0 = input.getD candidate 0 then
      backward input start cursor candidate + 1
    else 0
  | _, _ => 0

/-- How many bytes two places have in common, of at most `room`. -/
def forward (input : Array UInt8) : (room cursor candidate : Nat) → Nat
  | 0, _, _ => 0
  | room + 1, cursor, candidate =>
    if input.getD cursor 0 = input.getD candidate 0 then
      forward input room (cursor + 1) (candidate + 1) + 1
    else 0

/-- The state of a search. -/
structure Search where
  /-- The last place with each hash, which is zero where there is none. -/
  table : Array Nat
  /-- Where the literals since the last match start. -/
  start : Nat
  /-- Where to look for a match next. -/
  cursor : Nat
  /-- How many places have been looked at since the last match, counted from 32. -/
  misses : Nat
  /-- The block so far. -/
  block : Array UInt8

/-- Search on until the input ends. -/
def Search.run (input : Array UInt8) : (fuel : Nat) → Search → Array UInt8
  | 0, s => s.block ++ (encodeLast (input.toList.drop s.start)).toArray
  | fuel + 1, s =>
    if input.size < s.cursor + matchMargin then
      s.block ++ (encodeLast (input.toList.drop s.start)).toArray
    else
      let hash := slot input s.cursor
      let candidate := s.table.getD hash 0
      let table := s.table.setIfInBounds hash s.cursor
      if s.cursor - candidate ≤ maxDistance ∧
          window input 4 candidate = window input 4 s.cursor then
        let back := backward input s.start s.cursor candidate
        let cursor := s.cursor - back
        let stop := cursor + minMatch
        let extra := forward input (input.size - literalMargin - stop) stop
          (candidate - back + minMatch)
        let next := stop + extra
        let literals := (input.extract s.start cursor).toList
        run input fuel {
          table := table.setIfInBounds (slot input (next - 2)) (next - 2)
          start := next
          cursor := next
          misses := 32
          block := s.block ++
            (encodeSequence literals (s.cursor - candidate) extra).toArray }
      else
        run input fuel { s with
          table := table
          cursor := s.cursor + s.misses / 32
          misses := s.misses + 1 }

/-- A block with given bytes. -/
def compress (raw : Bytes) : Bytes :=
  if raw.length ≤ matchMargin then encodeLast raw
  else
    let input := raw.toArray
    (Search.run input (input.size + 1) {
      table := Array.replicate 4096 0
      start := 0
      cursor := 1
      misses := 32
      block := #[] }).toList

end CharacterArt.Lz4
