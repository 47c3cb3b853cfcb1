import CharacterArt.Binary
import CharacterArt.Picture

/-!
# Pictures as files

Pictures are written in the PNG format: a signature and three chunks, of which the second holds the
rows of the picture as stored blocks.

## Main Definitions

* `Png.crc` — the checksum of a chunk
* `Png.adler` — the checksum of the data in the second chunk
* `Png.encode` — the file of a picture

## Design Notes

Every row stands behind a byte zero, which says that it is not filtered.  The data is not
compressed: a stored block costs five bytes, less than the code tables of a small picture.
-/

namespace CharacterArt.Png

open Text (Bytes)

/-- The four bytes of a number, most significant first. -/
def bigEndian (n : Nat) : Bytes :=
  (Binary.littleEndian 4 n).reverse

/-- The remainder of one more byte, one bit at a time. -/
def crcBits : (bits : Nat) → UInt32 → UInt32
  | 0, c => c
  | bits + 1, c => crcBits bits (if c &&& 1 = 1 then (0xEDB88320 : UInt32) ^^^ (c >>> 1) else c >>> 1)

/-- The cyclic checksum of bytes. -/
def crc (bytes : Bytes) : UInt32 :=
  (bytes.foldl (fun c b => crcBits 8 (c ^^^ b.toUInt32)) (0xFFFFFFFF : UInt32)) ^^^ 0xFFFFFFFF

/-- The sums modulo 65521 of bytes and of the sums so far. -/
def adlerSums (bytes : Bytes) : Nat × Nat :=
  bytes.foldl (fun (a, b) x =>
    let a := (a + x.toNat) % 65521
    (a, (b + a) % 65521)) (1, 0)

/-- The sums of bytes as one number. -/
def adler (bytes : Bytes) : Nat :=
  let (a, b) := adlerSums bytes
  b * 65536 + a

/-- A chunk: length, type, data and checksum. -/
def chunk (kind : String) (data : Bytes) : Bytes :=
  let body := Text.Utf8.encode kind ++ data
  bigEndian data.length ++ body ++ bigEndian (crc body).toNat

/-- The greatest number of bytes of a stored block. -/
def blockSize : Nat := 65535

/-- Data as stored blocks, at most `n` of them. -/
def storedBlocks : (n : Nat) → Bytes → Bytes
  | 0, _ => []
  | n + 1, data =>
    let block := data.take blockSize
    let rest := data.drop blockSize
    let final : UInt8 := if rest.isEmpty then 1 else 0
    final :: Binary.littleEndian 2 block.length ++
      Binary.littleEndian 2 (blockSize - block.length) ++ block ++
      (if rest.isEmpty then [] else storedBlocks n rest)

/-- Data as a stream that stores it. -/
def stored (data : Bytes) : Bytes :=
  [0x78, 0x01] ++ storedBlocks (data.length / blockSize + 1) data ++ bigEndian (adler data)

/-- The rows of a picture, each behind a byte that says that it is not filtered. -/
def rows (p : Picture) : Bytes :=
  (List.range p.height).flatMap fun y =>
    0 :: (List.range p.width).flatMap fun x => (p.pixelAt x y).toRaw

/-- The mark at the start of a file. -/
def signature : Bytes := [0x89, 0x50, 0x4E, 0x47, 0x0D, 0x0A, 0x1A, 0x0A]

/-- Eight bits a channel, four channels, and the only methods that there are. -/
def format : Bytes := [8, 6, 0, 0, 0]

/-- The front of a file with a picture of a given size. -/
def front (width height : Nat) : Bytes :=
  signature ++ chunk "IHDR" (bigEndian width ++ bigEndian height ++ format)

/-- The file of a picture. -/
def encode (p : Picture) : Bytes :=
  front p.width p.height ++ chunk "IDAT" (stored (rows p)) ++ chunk "IEND" []

end CharacterArt.Png
