import Provenance.Archive.Bits

/-!
# Compressed data

Compressed data is a sequence of blocks. A block holds bytes as they are, or symbols written in
prefix codes: a symbol is a byte, the end of the block, or the length of a stretch that is repeated
from before, which is followed by its distance.
-/

namespace Provenance.Archive

/-- How compressed data ends. -/
inductive DataEnd where
  /-- After its last block. `rest` are the bytes that follow. -/
  | complete (rest : Bytes)
  /-- It breaks off. -/
  | truncated
  /-- It holds what no data holds. -/
  | corrupt
  deriving Repr

/-! ## Prefix codes -/

/-- A prefix code in which codes of one length are consecutive numbers. -/
structure PrefixCode where
  /-- The number of codes of each length from one bit on. -/
  counts : List Nat
  /-- The symbols in order of their codes. -/
  symbols : Array Nat
  deriving Repr

namespace PrefixCode

/-- The bits that a code takes at most. -/
def maxLength : Nat := 15

/-- The code that gives each symbol a length in bits, none where it is zero. -/
def ofLengths (lengths : List Nat) : PrefixCode :=
  let widths := (List.range maxLength).map (· + 1)
  { counts := widths.map fun w => (lengths.filter (· = w)).length
    symbols := (widths.flatMap fun w =>
      lengths.zipIdx.filterMap fun (l, s) => if l = w then some s else none).toArray }

/-- Whether all bit sequences begin with a code. -/
def isFull (c : PrefixCode) : Bool :=
  c.counts.foldl (fun total n => (total + n) * 2) 0 = Nat.pow 2 (maxLength + 1)

/-- The number of symbols. -/
def size (c : PrefixCode) : Nat := c.counts.foldl (· + ·) 0

/-- Reads a symbol bit by bit. Of the codes of the lengths so far, `first` would be the next number
and `index` symbols have shorter codes. The bits read so far write `code`. -/
def readFrom (symbols : Array Nat) : (counts : List Nat) → (code first index : Nat) → Bits →
    Except DataEnd (Nat × Bits)
  | [], _, _, _, _ => .error .corrupt
  | count :: counts, code, first, index, bits =>
    match bits.take? 1 with
    | none => .error .truncated
    | some (bit, bits) =>
      let code := code + bit
      if code < first + count then
        match symbols[index + (code - first)]? with
        | some s => .ok (s, bits)
        | none => .error .corrupt
      else readFrom symbols counts (code * 2) ((first + count) * 2) (index + count) bits

/-- Reads a symbol. -/
def read (c : PrefixCode) (bits : Bits) : Except DataEnd (Nat × Bits) :=
  readFrom c.symbols c.counts 0 0 0 bits

end PrefixCode

/-- Reads a number of bits that have to be there. -/
def readBits (n : Nat) (bits : Bits) : Except DataEnd (Nat × Bits) :=
  match bits.take? n with
  | some r => .ok r
  | none => .error .truncated

/-! ## Symbols -/

/-- The code for bytes and lengths, and the code for distances. -/
structure Codes where
  symbols : PrefixCode
  distances : PrefixCode
  deriving Repr

/-- The codes of blocks that bring none of their own. -/
def Codes.fixed : Codes where
  symbols := .ofLengths (List.replicate 144 8 ++ List.replicate 112 9 ++ List.replicate 24 7 ++
    List.replicate 8 8)
  distances := .ofLengths (List.replicate 32 5)

/-- The symbol that ends a block. -/
def endSymbol : Nat := 256

/-- Least length and number of further bits for each length symbol. -/
def lengthTable : Array (Nat × Nat) := #[
  (3, 0), (4, 0), (5, 0), (6, 0), (7, 0), (8, 0), (9, 0), (10, 0), (11, 1), (13, 1), (15, 1),
  (17, 1), (19, 2), (23, 2), (27, 2), (31, 2), (35, 3), (43, 3), (51, 3), (59, 3), (67, 4),
  (83, 4), (99, 4), (115, 4), (131, 5), (163, 5), (195, 5), (227, 5), (258, 0)]

/-- Least distance and number of further bits for each distance symbol. -/
def distanceTable : Array (Nat × Nat) := #[
  (1, 0), (2, 0), (3, 0), (4, 0), (5, 1), (7, 1), (9, 2), (13, 2), (17, 3), (25, 3), (33, 4),
  (49, 4), (65, 5), (97, 5), (129, 6), (193, 6), (257, 7), (385, 7), (513, 8), (769, 8),
  (1025, 9), (1537, 9), (2049, 10), (3073, 10), (4097, 11), (6145, 11), (8193, 12), (12289, 12),
  (16385, 13), (24577, 13)]

/-- Reads the rest of a length or distance whose symbol stands at an index of its table. -/
def readExtra (table : Array (Nat × Nat)) (index : Nat) (bits : Bits) :
    Except DataEnd (Nat × Bits) :=
  match table[index]? with
  | none => .error .corrupt
  | some (least, extra) => (readBits extra bits).map fun (n, bits) => (least + n, bits)

/-- Repeats `length` bytes from `distance` bytes before the end. Before the beginning there are
zeros. -/
def repeatBack (distance : Nat) : (length : Nat) → Array UInt8 → Array UInt8
  | 0, out => out
  | length + 1, out =>
    let b := if out.size < distance then 0 else out.getD (out.size - distance) 0
    repeatBack distance length (out.push b)

/-- What was decompressed so far, and the bits left or the end of the data. -/
abbrev Progress := Array UInt8 × Except DataEnd Bits

/-- Reads the length and the distance of a repetition. -/
def readRepeat (codes : Codes) (symbol : Nat) (bits : Bits) :
    Except DataEnd (Nat × Nat × Bits) := do
  let (length, bits) ← readExtra lengthTable (symbol - 257) bits
  let (s, bits) ← codes.distances.read bits
  let (distance, bits) ← readExtra distanceTable s bits
  return (length, distance, bits)

/-- Reads the symbols of a block. Each takes a bit at least, so as many steps as there are bits are
enough. -/
def readSymbols (codes : Codes) : (fuel : Nat) → Array UInt8 → Bits → Progress
  | 0, out, _ => (out, .error .truncated)
  | fuel + 1, out, bits =>
    match codes.symbols.read bits with
    | .error e => (out, .error e)
    | .ok (s, bits) =>
      if s < endSymbol then readSymbols codes fuel (out.push s.toUInt8) bits
      else if s = endSymbol then (out, .ok bits)
      else
        match readRepeat codes s bits with
        | .error e => (out, .error e)
        | .ok (length, distance, bits) =>
          readSymbols codes fuel (repeatBack distance length out) bits

/-! ## Blocks -/

/-- The order in which the lengths of the codes for lengths are given. -/
def lengthOrder : List Nat := [16, 17, 18, 0, 8, 7, 9, 6, 10, 5, 11, 4, 12, 3, 13, 2, 14, 1, 15]

/-- Reads `n` numbers of three bits. -/
def readTriples : (n : Nat) → Bits → Except DataEnd (List Nat × Bits)
  | 0, bits => .ok ([], bits)
  | n + 1, bits => do
    let (l, bits) ← readBits 3 bits
    let (ls, bits) ← readTriples n bits
    return (l :: ls, bits)

/-- Reads code lengths, last one first in `known`, until there are `total` of them. -/
def readLengths (code : PrefixCode) (total : Nat) : (fuel : Nat) → (known : List Nat) → Bits →
    Except DataEnd (List Nat × Bits)
  | 0, _, _ => .error .corrupt
  | fuel + 1, known, bits =>
    if total = known.length then .ok (known.reverse, bits)
    else if total < known.length then .error .corrupt
    else do
      let (s, bits) ← code.read bits
      if s < 16 then readLengths code total fuel (s :: known) bits
      else if s = 16 then
        match known with
        | [] => .error .corrupt
        | last :: _ => do
          let (n, bits) ← readBits 2 bits
          readLengths code total fuel (List.replicate (n + 3) last ++ known) bits
      else if s = 17 then do
        let (n, bits) ← readBits 3 bits
        readLengths code total fuel (List.replicate (n + 3) 0 ++ known) bits
      else do
        let (n, bits) ← readBits 7 bits
        readLengths code total fuel (List.replicate (n + 11) 0 ++ known) bits

/-- Reads the codes that a block brings. -/
def readCodes (bits : Bits) : Except DataEnd (Codes × Bits) := do
  let (n, bits) ← readBits 5 bits
  let symbolCount := n + 257
  let (n, bits) ← readBits 5 bits
  let distanceCount := n + 1
  let (n, bits) ← readBits 4 bits
  let (triples, bits) ← readTriples (n + 4) bits
  if 286 < symbolCount || 30 < distanceCount then throw .corrupt
  let given := lengthOrder.zip triples
  let code := PrefixCode.ofLengths ((List.range 19).map fun s =>
    ((given.find? fun entry => entry.1 = s).map (·.2)).getD 0)
  if !code.isFull then throw .corrupt
  let total := symbolCount + distanceCount
  let (lengths, bits) ← readLengths code total (total + 1) [] bits
  let codes : Codes :=
    ⟨.ofLengths (lengths.take symbolCount), .ofLengths (lengths.drop symbolCount)⟩
  if !codes.symbols.isFull && 1 < codes.symbols.size then throw .corrupt
  if !codes.distances.isFull && 1 < codes.distances.size then throw .corrupt
  return (codes, bits)

/-- Reads a block that holds bytes as they are: after the byte that was begun, their number, the
same number with all its bits turned, and the bytes. -/
def readStored (out : Array UInt8) (bits : Bits) : Progress :=
  match bits.bytes with
  | a :: b :: c :: d :: rest =>
    let n := a.toNat + 256 * b.toNat
    if n + (c.toNat + 256 * d.toNat) ≠ 65535 then (out, .error .corrupt)
    else
      let out := out ++ (rest.take n).toArray
      if rest.length < n then (out, .error .truncated) else (out, .ok (.ofBytes (rest.drop n)))
  | _ => (out, .error .truncated)

/-- Reads a block of a kind. -/
def readBlock (kind : Nat) (out : Array UInt8) (bits : Bits) : Progress :=
  match kind with
  | 0 => readStored out bits
  | 1 => readSymbols .fixed (bits.length + 1) out bits
  | 2 =>
    match readCodes bits with
    | .error e => (out, .error e)
    | .ok (codes, bits) => readSymbols codes (bits.length + 1) out bits
  | _ => (out, .error .corrupt)

/-- Reads blocks up to the last one. -/
def readBlocks : (fuel : Nat) → Array UInt8 → Bits → Array UInt8 × DataEnd
  | 0, out, _ => (out, .truncated)
  | fuel + 1, out, bits =>
    match readBits 3 bits with
    | .error e => (out, e)
    | .ok (n, bits) =>
      match readBlock (n / 2) out bits with
      | (out, .error e) => (out, e)
      | (out, .ok bits) =>
        if n % 2 = 1 then (out, .complete bits.bytes) else readBlocks fuel out bits

/-- Decompresses data as far as possible, and tells how it ends. -/
def inflate (bytes : Bytes) : Array UInt8 × DataEnd :=
  readBlocks (8 * bytes.length + 1) #[] (.ofBytes bytes)

end Provenance.Archive
