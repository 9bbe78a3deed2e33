/-!
# Inflating

Bytes that were compressed with the deflate method.

* `Bits` is a step of reading bits, least significant first within a byte;
* `Huffman.ofLengths` is the canonical code for given lengths, and `Huffman.decode` reads a symbol;
* `inflate?` gives back the bytes.
-/

namespace Immutability.Archive

/-- A step of reading bits: the bytes are given, and the position moves forward. -/
abbrev Bits := ReaderT ByteArray (StateT Nat Option)

namespace Bits

/-- Read a bit. -/
def bit : Bits Nat := do
  let position ← get
  let some byte := (← read)[position / 8]? | failure
  set (position + 1)
  return (byte.toNat >>> (position % 8)) % 2

/-- Read a number of the given width, least significant bit first. -/
def number : Nat → Bits Nat
  | 0 => return 0
  | width + 1 => do
    let low ← bit
    let high ← number width
    return low + 2 * high

/-- Move to the start of a byte. -/
def align : Bits Unit := modify fun position => (position + 7) / 8 * 8

/-- Read the same thing a number of times. -/
def times {α : Type} (item : Bits α) : Nat → Bits (List α)
  | 0 => return []
  | n + 1 => do
    let first ← item
    let rest ← times item n
    return first :: rest

end Bits

/-- A canonical code: the number of codes of each length from one on, and the symbols in the order
of their codes. -/
structure Huffman where
  counts : List Nat
  symbols : Array Nat

namespace Huffman

/-- The canonical code in which the symbols have the given lengths; length zero means no code. -/
def ofLengths (lengths : List Nat) : Huffman :=
  let pairs := lengths.zipIdx
  let ofLength := fun n => (pairs.filter (·.1 == n)).map (·.2)
  let byLength := (List.range 15).map fun n => ofLength (n + 1)
  ⟨byLength.map List.length, byLength.flatten.toArray⟩

/-- Read a symbol: `first` is the first code of the length reached, and `index` the place of its
symbol. -/
def decodeFrom (symbols : Array Nat) (code first index : Nat) : List Nat → Bits Nat
  | [] => failure
  | count :: counts => do
    let code := code + (← Bits.bit)
    if code < first + count then
      let some symbol := symbols[index + (code - first)]? | failure
      return symbol
    else decodeFrom symbols (2 * code) (2 * (first + count)) (index + count) counts

def decode (h : Huffman) : Bits Nat := decodeFrom h.symbols 0 0 0 h.counts

end Huffman

/-- The least length of each length symbol, and the number of bits that are added to it. -/
def lengthCodes : Array (Nat × Nat) :=
  #[(3, 0), (4, 0), (5, 0), (6, 0), (7, 0), (8, 0), (9, 0), (10, 0), (11, 1), (13, 1), (15, 1),
    (17, 1), (19, 2), (23, 2), (27, 2), (31, 2), (35, 3), (43, 3), (51, 3), (59, 3), (67, 4),
    (83, 4), (99, 4), (115, 4), (131, 5), (163, 5), (195, 5), (227, 5), (258, 0)]

/-- The least distance of each distance symbol, and the number of bits that are added to it. -/
def distanceCodes : Array (Nat × Nat) :=
  #[(1, 0), (2, 0), (3, 0), (4, 0), (5, 1), (7, 1), (9, 2), (13, 2), (17, 3), (25, 3), (33, 4),
    (49, 4), (65, 5), (97, 5), (129, 6), (193, 6), (257, 7), (385, 7), (513, 8), (769, 8),
    (1025, 9), (1537, 9), (2049, 10), (3073, 10), (4097, 11), (6145, 11), (8193, 12), (12289, 12),
    (16385, 13), (24577, 13)]

/-- The order in which the lengths of the code for lengths are written. -/
def lengthOrder : List Nat := [16, 17, 18, 0, 8, 7, 9, 6, 10, 5, 11, 4, 12, 3, 13, 2, 14, 1, 15]

/-- Read the number that a symbol stands for. -/
def coded (codes : Array (Nat × Nat)) (symbol : Nat) : Bits Nat := do
  let some (least, width) := codes[symbol]? | failure
  return least + (← Bits.number width)

/-- Bytes from some way back, once more. -/
def copyBack (out : ByteArray) (distance : Nat) : Nat → Option ByteArray
  | 0 => some out
  | n + 1 =>
    if distance ≤ out.size then
      match out[out.size - distance]? with
      | some byte => copyBack (out.push byte) distance n
      | none => none
    else none

/-- Read the symbols of a block up to its end. There are no more symbols than bits. -/
def compressed (literals distances : Huffman) : Nat → ByteArray → Bits ByteArray
  | 0, _ => failure
  | bound + 1, out => do
    let symbol ← literals.decode
    if symbol < 256 then compressed literals distances bound (out.push symbol.toUInt8)
    else if symbol = 256 then return out
    else
      let length ← coded lengthCodes (symbol - 257)
      let distance ← coded distanceCodes (← distances.decode)
      let some out := copyBack out distance length | failure
      compressed literals distances bound out

/-- Read a block that is not compressed. -/
def stored (out : ByteArray) : Bits ByteArray := do
  Bits.align
  let size ← Bits.number 16
  let check ← Bits.number 16
  if size + check ≠ 65535 then failure
  let start := (← get) / 8
  let data ← read
  if data.size < start + size then failure
  set (8 * (start + size))
  return out ++ data.extract start (start + size)

/-- The codes of a block that brings none of its own. -/
def fixedCodes : Huffman × Huffman :=
  (.ofLengths (List.replicate 144 8 ++ List.replicate 112 9 ++ List.replicate 24 7 ++
    List.replicate 8 8), .ofLengths (List.replicate 30 5))

/-- Read a sequence of lengths, the last one first, in which a length or zero may be repeated. -/
def lengths (h : Huffman) (count : Nat) : Nat → List Nat → Bits (List Nat)
  | 0, _ => failure
  | bound + 1, done => do
    if done.length = count then return done.reverse
    else if count < done.length then failure
    else
      let symbol ← h.decode
      if symbol < 16 then lengths h count bound (symbol :: done)
      else
        let (value, least, width) ← match symbol, done with
          | 16, last :: _ => pure (last, 3, 2)
          | 17, _ => pure (0, 3, 3)
          | 18, _ => pure (0, 11, 7)
          | _, _ => failure
        let n := least + (← Bits.number width)
        lengths h count bound (List.replicate n value ++ done)

/-- Read the codes of a block. -/
def ownCodes : Bits (Huffman × Huffman) := do
  let literals := 257 + (← Bits.number 5)
  let distances := 1 + (← Bits.number 5)
  let written ← Bits.times (Bits.number 3) (4 + (← Bits.number 4))
  let given := lengthOrder.zip written
  let ofLengths := Huffman.ofLengths ((List.range 19).map fun i => (given.lookup i).getD 0)
  let all ← lengths ofLengths (literals + distances) (literals + distances + 1) []
  return (.ofLengths (all.take literals), .ofLengths (all.drop literals))

/-- Read blocks up to the last one. There are no more blocks than bits. -/
def blocks (bound : Nat) : Nat → ByteArray → Bits ByteArray
  | 0, _ => failure
  | n + 1, out => do
    let last ← Bits.bit
    let out ← match ← Bits.number 2 with
      | 0 => stored out
      | 1 => compressed fixedCodes.1 fixedCodes.2 bound out
      | 2 => do
        let (literals, distances) ← ownCodes
        compressed literals distances bound out
      | _ => failure
    if last = 1 then return out else blocks bound n out

/-- The bytes that were compressed. -/
def inflate? (data : ByteArray) : Option ByteArray :=
  let bound := 8 * data.size + 1
  ((blocks bound bound .empty).run data).run' 0

end Immutability.Archive
