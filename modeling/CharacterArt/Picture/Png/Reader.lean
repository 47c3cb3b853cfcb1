import CharacterArt.Picture.Inflate
import CharacterArt.Picture.Png

/-!
# Pictures from files

Reading the PNG format in all its forms: gray and colors, with a palette or without, with one to
sixteen bits a channel, with rows in order or in seven passes.

## Main Definitions

* `Png.Chunk`, `Png.chunk?` — a part of a file
* `Png.Header`, `Png.Front`, `Png.front?` — what a file says before its pixels
* `Png.unfilter` — a row from its differences to the pixels beside and above
* `Png.size?` — the width and height of the picture in a file
* `Png.decode?` — the picture in a file

## Design Notes

A chunk that only adds something and whose checksum is wrong is passed over; any other one with a
wrong checksum makes the file unreadable.  The size is known as soon as the pixels begin, whether
they can be read or not.  All forms are brought to four channels of eight bits: few bits are spread
over the whole range, and sixteen bits are rounded.
-/

namespace CharacterArt.Png

open Text (Bytes)

/-- The number that four bytes spell, most significant first. -/
def ofBigEndian (bytes : Bytes) : Nat :=
  Binary.ofLittleEndian bytes.reverse

/-! ### Chunks -/

/-- A part of a file. -/
structure Chunk where
  kind : Bytes
  data : Bytes
  /-- Whether the checksum is that of the chunk. -/
  isSound : Bool
  deriving DecidableEq, Repr

/-- The kind of chunk of a name. -/
def kindOf (name : String) : Bytes :=
  Text.Utf8.encode name

/-- Whether a picture cannot be read without the chunks of a kind. -/
def isCritical (kind : Bytes) : Bool :=
  match kind with
  | b :: _ => b &&& 0x20 == 0
  | [] => false

/-- The length and the kind of the next chunk, and the bytes behind them. -/
def chunkHead? (bytes : Bytes) : Option (Nat × Bytes × Bytes) := do
  let (length, rest) ← Binary.splitExactly 4 bytes
  let (kind, rest) ← Binary.splitExactly 4 rest
  return (ofBigEndian length, kind, rest)

/-- The next chunk, and the bytes behind it. -/
def chunk? (bytes : Bytes) : Option (Chunk × Bytes) := do
  let (length, kind, rest) ← chunkHead? bytes
  let (data, rest) ← Binary.splitExactly length rest
  let (sum, rest) ← Binary.splitExactly 4 rest
  return (⟨kind, data, ofBigEndian sum == (crc (kind ++ data)).toNat⟩, rest)

/-! ### What stands before the pixels -/

/-- What the channels of a pixel are. -/
inductive ColorKind where
  | gray
  | rgb
  | indexed
  | grayAlpha
  | rgba
  deriving DecidableEq, Repr

/-- The kind that a byte stands for. -/
def ColorKind.ofByte? : UInt8 → Option ColorKind
  | 0 => some gray
  | 2 => some rgb
  | 3 => some indexed
  | 4 => some grayAlpha
  | 6 => some rgba
  | _ => none

/-- How many channels a pixel has. -/
def ColorKind.channels : ColorKind → Nat
  | gray | indexed => 1
  | grayAlpha => 2
  | rgb => 3
  | rgba => 4

/-- How many bits a channel may have. -/
def ColorKind.depths : ColorKind → List Nat
  | gray => [1, 2, 4, 8, 16]
  | indexed => [1, 2, 4, 8]
  | rgb | grayAlpha | rgba => [8, 16]

/-- The size and the form of a picture. -/
structure Header where
  width : Nat
  height : Nat
  /-- How many bits a channel has. -/
  depth : Nat
  color : ColorKind
  /-- Whether the rows come in seven passes. -/
  interlaced : Bool
  deriving DecidableEq, Repr

/-- The header in the data of the first chunk. -/
def header? (data : Bytes) : Option Header := do
  let (width, rest) ← Binary.splitExactly 4 data
  let (height, rest) ← Binary.splitExactly 4 rest
  match rest with
  | [depth, color, 0, 0, passes] =>
    let color ← ColorKind.ofByte? color
    let h : Header := ⟨ofBigEndian width, ofBigEndian height, depth.toNat, color, passes == 1⟩
    if h.width = 0 ∨ h.height = 0 ∨ !color.depths.contains h.depth ∨ 1 < passes then none else some h
  | _ => none

/-- What a file says before its pixels. -/
structure Front where
  header : Header
  /-- The colors that pixels name by number. -/
  palette : Option (Array Pixel) := none
  /-- Which color is transparent, or how opaque the colors of the palette are. -/
  transparency : Option Bytes := none

/-- The opaque colors of triples of bytes. -/
def paletteOf : Bytes → List Pixel
  | r :: g :: b :: rest => ⟨r, g, b, 255⟩ :: paletteOf rest
  | _ => []

/-- Whether the data of a chunk of transparency fit what was said before. -/
def Front.admitsTransparency (f : Front) (data : Bytes) : Bool :=
  f.transparency.isNone &&
    match f.header.color with
    | .gray => 2 ≤ data.length
    | .rgb => 6 ≤ data.length
    | .indexed => f.palette.isSome
    | .grayAlpha | .rgba => false

/-- What is known after a chunk that is none of pixels. -/
def Front.add? (f : Front) (c : Chunk) : Option Front :=
  if !c.isSound then (if isCritical c.kind then none else some f)
  else if c.kind = kindOf "PLTE" then
    if f.palette.isSome then none else some { f with palette := some (paletteOf c.data).toArray }
  else if c.kind = kindOf "tRNS" then
    if f.admitsTransparency c.data then some { f with transparency := some c.data } else none
  else if isCritical c.kind then none
  else some f

/-- Read chunks, at most `rounds` of them, up to the first one of pixels: what they say, and the
bytes from there on. -/
def frontFrom : (rounds : Nat) → Front → Bytes → Option (Front × Bytes)
  | 0, _, _ => none
  | rounds + 1, f, bytes =>
    match chunkHead? bytes with
    | none => none
    | some (_, kind, _) =>
      if kind = kindOf "IDAT" then some (f, bytes)
      else
        match chunk? bytes with
        | none => none
        | some (c, rest) =>
          match f.add? c with
          | some f => frontFrom rounds f rest
          | none => none

/-- What a file says before its pixels, and the bytes from there on. -/
def front? (file : Bytes) : Option (Front × Bytes) := do
  let (mark, rest) ← Binary.splitExactly signature.length file
  if mark ≠ signature then none
  let (first, rest) ← chunk? rest
  if first.kind ≠ kindOf "IHDR" ∨ !first.isSound then none
  frontFrom file.length { header := ← header? first.data } rest

/-- The width and height of the picture in a file. -/
def size? (file : Bytes) : Option (Nat × Nat) :=
  (front? file).map fun (f, _) => (f.header.width, f.header.height)

/-- The data of the chunks of pixels at the front of some bytes, at most `rounds` of them.  Another
chunk has to begin behind them. -/
def pixelData? : (rounds : Nat) → Bytes → Option Bytes
  | 0, _ => none
  | rounds + 1, bytes =>
    match chunkHead? bytes with
    | none => none
    | some (_, kind, _) =>
      if kind ≠ kindOf "IDAT" then some []
      else
        match chunk? bytes with
        | some (⟨_, data, true⟩, rest) => (pixelData? rounds rest).map (data ++ ·)
        | _ => none

/-! ### Rows -/

/-- Of three neighbours, the one nearest to what the slope through them leads to. -/
def nearest (left above corner : UInt8) : UInt8 :=
  let slope : Int := (left.toNat : Int) + above.toNat - corner.toNat
  let toLeft := (slope - left.toNat).natAbs
  let toAbove := (slope - above.toNat).natAbs
  let toCorner := (slope - corner.toNat).natAbs
  if toLeft ≤ toAbove ∧ toLeft ≤ toCorner then left
  else if toAbove ≤ toCorner then above
  else corner

/-- What a byte of a row is a difference to, for the filter of a number. -/
def predicted (filter : UInt8) (left above corner : UInt8) : UInt8 :=
  match filter with
  | 1 => left
  | 2 => above
  | 3 => ((left.toNat + above.toNat) / 2).toUInt8
  | 4 => nearest left above corner
  | _ => 0

/-- The byte `step` places before place `i` of a row. -/
def before (row : Array UInt8) (step i : Nat) : UInt8 :=
  if i < step then 0 else row.getD (i - step) 0

/-- A row from its differences to the pixels beside and above, of `step` bytes each. -/
def unfilter (filter : UInt8) (step : Nat) (above : Array UInt8) (row : Bytes) : Array UInt8 :=
  row.foldl (fun done x =>
    let i := done.size
    done.push (x + predicted filter (before done step i) (above.getD i 0) (before above step i))) #[]

/-- Rows of `size` bytes each, from top to bottom below a row, and the bytes behind them. -/
def rowsBelow (step size : Nat) (above : Array UInt8) :
    (height : Nat) → Bytes → Option (List (Array UInt8) × Bytes)
  | 0, bytes => some ([], bytes)
  | height + 1, bytes =>
    match bytes with
    | [] => none
    | filter :: bytes =>
      if 4 < filter then none
      else do
        let (row, rest) ← Binary.splitExactly size bytes
        let row := unfilter filter step above row
        let (rows, rest) ← rowsBelow step size row height rest
        return (row :: rows, rest)

/-! ### Pixels -/

/-- The parts of `depth` bits of a byte, highest first. -/
def parts (depth : Nat) (b : UInt8) : List Nat :=
  (List.range (8 / depth)).map fun i => (b.toNat >>> (8 - depth * (i + 1))) % (1 <<< depth)

/-- Numbers of two bytes each. -/
def pairs : Bytes → List Nat
  | high :: low :: rest => (high.toNat * 256 + low.toNat) :: pairs rest
  | _ => []

/-- The channels of a row. -/
def samples (depth : Nat) (row : Bytes) : List Nat :=
  if depth = 16 then pairs row
  else if depth = 8 then row.map UInt8.toNat
  else row.flatMap (parts depth)

/-- A channel of some bits as one of eight bits. -/
def toEight (depth n : Nat) : UInt8 :=
  if depth = 16 then ((n + 128) / 257).toUInt8
  else (n * 255 / ((1 <<< depth) - 1)).toUInt8

/-- The channels of the color that is transparent, if there is one. -/
def Front.transparent? (f : Front) : Option (List Nat) :=
  f.transparency.map fun data =>
    ((pairs data).map fun n => if f.header.depth = 16 then n else n % 256).take f.header.color.channels

/-- The alpha of a pixel without a channel for it. -/
def Front.alphaOf (f : Front) (channels : List Nat) : UInt8 :=
  if f.transparent? = some channels then 0 else 255

/-- The color of a number in the palette. -/
def Front.colorAt (f : Front) (n : Nat) : Pixel :=
  let color := ((f.palette.getD #[])[n]?).getD ⟨0, 0, 0, 255⟩
  { color with alpha := ((f.transparency.getD [])[n]?).getD 255 }

/-- The pixels of a row of channels. -/
def Front.pixels (f : Front) : List Nat → List Pixel
  | [] => []
  | n :: rest =>
    let eight := toEight f.header.depth
    match f.header.color with
    | .gray => ⟨eight n, eight n, eight n, f.alphaOf [n]⟩ :: f.pixels rest
    | .indexed => f.colorAt n :: f.pixels rest
    | .grayAlpha =>
      match rest with
      | a :: rest => ⟨eight n, eight n, eight n, eight a⟩ :: f.pixels rest
      | _ => []
    | .rgb =>
      match rest with
      | g :: b :: rest => ⟨eight n, eight g, eight b, f.alphaOf [n, g, b]⟩ :: f.pixels rest
      | _ => []
    | .rgba =>
      match rest with
      | g :: b :: a :: rest => ⟨eight n, eight g, eight b, eight a⟩ :: f.pixels rest
      | _ => []

/-! ### Passes -/

/-- The pixels of a pass: where the first one is, and how far the next ones in its row and its
column are. -/
structure Pass where
  x : Nat
  y : Nat
  stepX : Nat
  stepY : Nat
  deriving DecidableEq, Repr

/-- The passes of a picture. -/
def Header.passes (h : Header) : List Pass :=
  if h.interlaced then
    [⟨0, 0, 8, 8⟩, ⟨4, 0, 8, 8⟩, ⟨0, 4, 4, 8⟩, ⟨2, 0, 4, 4⟩, ⟨0, 2, 2, 4⟩, ⟨1, 0, 2, 2⟩, ⟨0, 1, 1, 2⟩]
  else [⟨0, 0, 1, 1⟩]

/-- How many of `size` places are some steps behind the first one. -/
def reached (size first step : Nat) : Nat :=
  (size + step - 1 - first) / step

/-- How many bytes a row of a width has. -/
def Header.rowSize (h : Header) (width : Nat) : Nat :=
  (width * h.color.channels * h.depth + 7) / 8

/-- How many bytes a pixel has, at least one. -/
def Header.pixelSize (h : Header) : Nat :=
  max 1 (h.color.channels * h.depth / 8)

/-- The pixels of each pass, and how many of them a row has. -/
def Front.readPasses (f : Front) : List Pass → Bytes → Option (List (Pass × Nat × Array Pixel))
  | [], _ => some []
  | p :: more, bytes => do
    let width := reached f.header.width p.x p.stepX
    let height := if width = 0 then 0 else reached f.header.height p.y p.stepY
    let size := f.header.rowSize width
    let (rows, rest) ← rowsBelow f.header.pixelSize size (Array.replicate size 0) height bytes
    let pixels := rows.flatMap fun row =>
      (f.pixels (samples f.header.depth row.toList)).take width
    return (p, width, pixels.toArray) :: (← f.readPasses more rest)

/-- The pixel in column `x` of row `y`, from the pass that holds it. -/
def pixelOf (passes : List (Pass × Nat × Array Pixel)) (x y : Nat) : Pixel :=
  match passes.find? fun (p, _, _) => x % p.stepX == p.x && y % p.stepY == p.y with
  | some (p, width, pixels) => pixels.getD (y / p.stepY * width + x / p.stepX) default
  | none => default

/-- The greatest number of bytes that the channels of a picture may take. -/
def maxSize : Nat := 1 <<< 29

/-- The picture in a file. -/
def decode? (file : Bytes) : Option Picture := do
  let (f, rest) ← front? file
  if f.header.color = .indexed ∧ f.palette.isNone then none
  if maxSize < f.header.width * f.header.height * f.header.color.channels then none
  let data ← Inflate.unzip? (← pixelData? file.length rest)
  let passes ← f.readPasses f.header.passes data.toList
  return Picture.tabulate f.header.width f.header.height (pixelOf passes)

end CharacterArt.Png
