import CharacterArt.Binary

/-!
# Compressed data

Reading data in the DEFLATE format inside the frame of the ZLIB format.

## Main Definitions

* `Source`, `Decoder` — bits that are left to read, and readers of them
* `Code`, `Code.ofLengths?` — prefix codes, given by the lengths of their words
* `Code.read` — the symbol of the next word
* `compressed`, `stored`, `blocks` — the kinds of block, and a sequence of blocks
* `unzip?` — the data of a whole stream

## Design Notes

A code is kept as the symbols of its words of one bit, of two bits and so on.  Words of one length
are counted from zero behind those that shorter words begin, so reading a word needs one number:
how far it lies behind the first word of its length.  Rounds count down from the number of bits,
since every symbol and every block takes one.  The checksum at the end has to be there, but is not
compared.
-/

namespace CharacterArt.Inflate

open Text (Bytes)

/-- Bits that are left to read. -/
structure Source where
  /-- What is left of a byte that was begun, lowest bit first. -/
  bits : List Bool := []
  bytes : Bytes
  deriving DecidableEq, Repr

/-- A reader of bits, which may refuse them. -/
abbrev Decoder := StateT Source Option

/-- The bits of a byte, lowest first. -/
def bitsOf (b : UInt8) : List Bool :=
  (List.range 8).map fun i => b.toNat.testBit i

/-- The next bit. -/
def bit : Decoder Nat := do
  match ← get with
  | ⟨b :: bits, bytes⟩ => set (Source.mk bits bytes); return b.toNat
  | ⟨[], byte :: bytes⟩ =>
    match bitsOf byte with
    | b :: bits => set (Source.mk bits bytes); return b.toNat
    | [] => failure
  | ⟨[], []⟩ => failure

/-- A number of `n` bits, lowest first. -/
def number : (n : Nat) → Decoder Nat
  | 0 => return 0
  | n + 1 => do
    let b ← bit
    return b + 2 * (← number n)

/-! ### Prefix codes -/

/-- A prefix code: the symbols whose words have one bit, two bits and so on, each in the order of
the words. -/
abbrev Code := List (Array Nat)

/-- The greatest length of a word. -/
def maxWordLength : Nat := 15

/-- The symbol of the next word, which lies `behind` the first word of its length. -/
def Code.readFrom : Code → (behind : Nat) → Decoder Nat
  | [], _ => failure
  | symbols :: longer, behind => do
    let behind := 2 * behind + (← bit)
    match symbols[behind]? with
    | some s => return s
    | none => readFrom longer (behind - symbols.size)

/-- The symbol of the next word. -/
def Code.read (code : Code) : Decoder Nat :=
  code.readFrom 0

/-- How much of all words of the greatest length begin with a word of a code. -/
def weight (lengths : List Nat) : Nat :=
  lengths.foldl (fun total n => if n = 0 then total else total + (1 <<< (maxWordLength - n))) 0

/-- The code in which the word of each symbol has a given length, or no word if that is zero. -/
def Code.ofLengths (lengths : List Nat) : Code :=
  (List.range maxWordLength).map fun n =>
    (lengths.zipIdx.filterMap fun (length, symbol) =>
      if length = n + 1 then some symbol else none).toArray

/-- The code of given lengths, if every sequence of bits begins with a word. -/
def Code.ofLengths? (lengths : List Nat) : Option Code :=
  if weight lengths = 1 <<< maxWordLength then some (ofLengths lengths) else none

/-- The code of given lengths for distances, of which there may be one or none. -/
def Code.ofDistanceLengths? (lengths : List Nat) : Option Code :=
  let words := lengths.filter (· != 0)
  if words.isEmpty || words == [1] then
    some (ofLengths lengths)
  else ofLengths? lengths

/-! ### Blocks -/

/-- What a symbol of a length stands for: the least value, and how many bits are added to it. -/
def lengthTable : List (Nat × Nat) :=
  [(3, 0), (4, 0), (5, 0), (6, 0), (7, 0), (8, 0), (9, 0), (10, 0), (11, 1), (13, 1), (15, 1),
    (17, 1), (19, 2), (23, 2), (27, 2), (31, 2), (35, 3), (43, 3), (51, 3), (59, 3), (67, 4),
    (83, 4), (99, 4), (115, 4), (131, 5), (163, 5), (195, 5), (227, 5), (258, 0)]

/-- What a symbol of a distance stands for. -/
def distanceTable : List (Nat × Nat) :=
  [(1, 0), (2, 0), (3, 0), (4, 0), (5, 1), (7, 1), (9, 2), (13, 2), (17, 3), (25, 3), (33, 4),
    (49, 4), (65, 5), (97, 5), (129, 6), (193, 6), (257, 7), (385, 7), (513, 8), (769, 8),
    (1025, 9), (1537, 9), (2049, 10), (3073, 10), (4097, 11), (6145, 11), (8193, 12), (12289, 12),
    (16385, 13), (24577, 13)]

/-- The value that a symbol of a table and the bits after it stand for. -/
def quantity (table : List (Nat × Nat)) (symbol : Nat) : Decoder Nat := do
  match table[symbol]? with
  | some (least, bits) => return least + (← number bits)
  | none => failure

/-- Data with `n` more bytes, each of them equal to the one `distance` bytes before it. -/
def repeated (distance : Nat) : (n : Nat) → Array UInt8 → Array UInt8
  | 0, out => out
  | n + 1, out => repeated distance n (out.push (out.getD (out.size - distance) 0))

/-- The symbols of a block up to its end. -/
def compressed (literals distances : Code) : (rounds : Nat) → Array UInt8 → Decoder (Array UInt8)
  | 0, _ => failure
  | rounds + 1, out => do
    let symbol ← literals.read
    if symbol < 256 then compressed literals distances rounds (out.push symbol.toUInt8)
    else if symbol = 256 then return out
    else
      let length ← quantity lengthTable (symbol - 257)
      let distance ← quantity distanceTable (← distances.read)
      if out.size < distance then failure
      compressed literals distances rounds (repeated distance length out)

/-- A block that holds its data as they are. -/
def stored (out : Array UInt8) : Decoder (Array UInt8) := do
  match (← get).bytes with
  | low :: high :: low' :: high' :: bytes =>
    if low + low' ≠ 0xFF ∨ high + high' ≠ 0xFF then failure
    match Binary.splitExactly (Binary.ofLittleEndian [low, high]) bytes with
    | some (data, rest) =>
      set (Source.mk [] rest)
      return out ++ data.toArray
    | none => failure
  | _ => failure

/-- The code of literals and lengths that needs no description. -/
def fixedLiterals : Code :=
  .ofLengths (List.replicate 144 8 ++ List.replicate 112 9 ++ List.replicate 24 7 ++
    List.replicate 8 8)

/-- The code of distances that needs no description. -/
def fixedDistances : Code :=
  .ofLengths (List.replicate 32 5)

/-- The order in which the lengths of the words for lengths of words are given. -/
def lengthOrder : List Nat :=
  [16, 17, 18, 0, 8, 7, 9, 6, 10, 5, 11, 4, 12, 3, 13, 2, 14, 1, 15]

/-- Lengths of words, after those in `before`, last first, until none is owed. -/
def wordLengths (code : Code) : (rounds owed : Nat) → (before : List Nat) → Decoder (List Nat)
  | _, 0, before => return before.reverse
  | 0, _ + 1, _ => failure
  | rounds + 1, owed, before => do
    let symbol ← code.read
    let (value, count) ← match symbol, before with
      | 16, last :: _ => pure (last, 3 + (← number 2))
      | 16, [] => failure
      | 17, _ => pure (0, 3 + (← number 3))
      | 18, _ => pure (0, 11 + (← number 7))
      | n, _ => pure (n, 1)
    if owed < count then failure
    wordLengths code rounds (owed - count) (List.replicate count value ++ before)

/-- The codes that the front of a block describes. -/
def describedCodes : Decoder (Code × Code) := do
  let literals := 257 + (← number 5)
  let distances := 1 + (← number 5)
  let count := 4 + (← number 4)
  if 286 < literals ∨ 30 < distances then failure
  let given ← (lengthOrder.take count).mapM fun symbol => do return (symbol, ← number 3)
  let lengths := (List.range 19).map fun symbol => ((given.lookup symbol).getD 0)
  match Code.ofLengths? lengths with
  | none => failure
  | some code =>
    let all ← wordLengths code (literals + distances) (literals + distances) []
    match Code.ofLengths? (all.take literals), Code.ofDistanceLengths? (all.drop literals) with
    | some l, some d => if (all[256]?).getD 0 = 0 then failure else return (l, d)
    | _, _ => failure

/-- Blocks up to the last one. -/
def blocks (size : Nat) : (rounds : Nat) → Array UInt8 → Decoder (Array UInt8)
  | 0, _ => failure
  | rounds + 1, out => do
    let last ← bit
    let out ← match ← number 2 with
      | 0 => stored out
      | 1 => compressed fixedLiterals fixedDistances size out
      | 2 =>
        let (literals, distances) ← describedCodes
        compressed literals distances size out
      | _ => failure
    if last = 1 then return out else blocks size rounds out

/-- Whether two bytes begin a stream: its method, and a check of both. -/
def isHeader (method flags : UInt8) : Bool :=
  method &&& 0x0F == 8 && method ≤ 0x7F && flags &&& 0x20 == 0 &&
    (method.toNat * 256 + flags.toNat) % 31 == 0

/-- The data of a whole stream. -/
def unzip? (stream : Bytes) : Option (Array UInt8) :=
  match stream with
  | method :: flags :: bytes =>
    if isHeader method flags then
      let size := 8 * bytes.length + 1
      match (blocks size size #[]).run { bytes := bytes } with
      | some (out, rest) => if 4 ≤ rest.bytes.length then some out else none
      | none => none
    else none
  | _ => none

end CharacterArt.Inflate
