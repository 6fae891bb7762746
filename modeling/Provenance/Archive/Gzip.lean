import Provenance.Archive.Deflate

/-!
# Compressed files

A compressed file is a header, compressed data, and a trailer with the checksum and the length of
what was compressed. What can be read of it is a stream: bytes, and at their end either nothing more
or the reason why nothing more can be read.
-/

namespace Provenance.Archive

/-- Why an archive cannot be read further. -/
inductive Flaw where
  | badHeader
  /-- The file breaks off. -/
  | endsEarly
  | corruptData
  | badChecksum
  /-- The archive ends inside a block. -/
  | brokenBlock
  | badBlockChecksum
  | badNumber
  /-- The archive ends inside a member that is passed over. -/
  | endsInSkip
  /-- Two descriptions of one member. -/
  | describedTwice
  /-- A description of a member that does not come. -/
  | describedNothing
  /-- A member with holes in an archive that knows no such members. -/
  | strangeSparse
  deriving DecidableEq, Repr

/-- The message of a flaw. -/
def Flaw.message : Flaw → String
  | .badHeader => "invalid gzip header"
  | .endsEarly => "unexpected end of file"
  | .corruptData => "corrupt deflate stream"
  | .badChecksum => "corrupt gzip stream does not have a matching checksum"
  | .brokenBlock => "failed to read entire block"
  | .badBlockChecksum => "archive header checksum mismatch"
  | .badNumber => "numeric field was not a number"
  | .endsInSkip => "unexpected EOF during skip"
  | .describedTwice => "two long name entries describing the same member"
  | .describedNothing => "members found describing a future member but no future member found"
  | .strangeSparse => "sparse entry type listed but not GNU header"

/-- Bytes to be read, and why no more can be read after them, if not because that is all. -/
structure Stream where
  bytes : Bytes
  flaw : Option Flaw
  deriving Repr

/-! ## Checksums -/

/-- One bit of the checksum of 32 bits. -/
def checksumBit (c : UInt32) : UInt32 :=
  if c &&& 1 = 1 then (c >>> 1) ^^^ 0xEDB88320 else c >>> 1

/-- Takes a byte into a checksum. -/
def checksumByte (c : UInt32) (b : UInt8) : UInt32 :=
  (List.range 8).foldl (fun c _ => checksumBit c) (c ^^^ b.toUInt32)

/-- The checksum of some bytes. -/
def checksum (bytes : Bytes) : Nat := (bytes.foldl checksumByte 0xFFFFFFFF ^^^ 0xFFFFFFFF).toNat

/-- The number that bytes write, the lowest first. -/
def littleEndian (bytes : Bytes) : Nat := bytes.foldr (fun b n => b.toNat + 256 * n) 0

/-! ## The header -/

/-- Whether a bit of a number is set. -/
def hasBit (b : UInt8) (bit : Nat) : Bool := b.toNat / Nat.pow 2 bit % 2 = 1

/-- The rest after a text that ends in zero. -/
def skipText (bytes : Bytes) : Except Flaw Bytes :=
  match bytes.dropWhile (· ≠ 0) with
  | _ :: rest => .ok rest
  | [] => .error .endsEarly

/-- The rest after a field that begins with its length in two bytes. -/
def skipField (bytes : Bytes) : Except Flaw Bytes :=
  match bytes with
  | a :: b :: rest =>
    let n := littleEndian [a, b]
    if rest.length < n then .error .endsEarly else .ok (rest.drop n)
  | _ => .error .endsEarly

/-- The rest after the checksum of the header before it. -/
def skipHeaderChecksum (whole bytes : Bytes) : Except Flaw Bytes :=
  match bytes with
  | a :: b :: rest =>
    let header := whole.take (whole.length - bytes.length)
    if littleEndian [a, b] = checksum header % 65536 then .ok rest else .error .badHeader
  | _ => .error .endsEarly

/-- Applies a step if it is asked for. -/
def stepIf (wanted : Bool) (step : Bytes → Except Flaw Bytes) (bytes : Bytes) :
    Except Flaw Bytes :=
  if wanted then step bytes else .ok bytes

/-- The rest after the header of a file. -/
def skipHeader (whole : Bytes) : Except Flaw Bytes :=
  match whole with
  | a :: b :: method :: flags :: _ :: _ :: _ :: _ :: _ :: _ :: rest =>
    if a ≠ 0x1F || b ≠ 0x8B || method ≠ 8 || hasBit flags 5 || hasBit flags 6 || hasBit flags 7 then
      .error .badHeader
    else do
      let rest ← stepIf (hasBit flags 2) skipField rest
      let rest ← stepIf (hasBit flags 3) skipText rest
      let rest ← stepIf (hasBit flags 4) skipText rest
      stepIf (hasBit flags 1) (skipHeaderChecksum whole) rest
  | _ => .error .endsEarly

/-! ## The whole -/

/-- The trailer's verdict on what was decompressed. -/
def trailerFlaw (output rest : Bytes) : Option Flaw :=
  if rest.length < 8 then some .endsEarly
  else if littleEndian (rest.take 4) = checksum output &&
      littleEndian ((rest.drop 4).take 4) = output.length % Nat.pow 2 32 then none
  else some .badChecksum

/-- Bytes that are decompressed at a time. When the data is corrupt, none of the time's come out. -/
def window : Nat := 32768

/-- What can be read of a compressed file. What follows its trailer is ignored. -/
def gunzip (file : Bytes) : Stream :=
  match skipHeader file with
  | .error flaw => ⟨[], some flaw⟩
  | .ok data =>
    match inflate data with
    | (output, .complete rest) => ⟨output.toList, trailerFlaw output.toList rest⟩
    | (output, .truncated) => ⟨output.toList, some .endsEarly⟩
    | (output, .corrupt) =>
      ⟨output.toList.take (output.size / window * window), some .corruptData⟩

end Provenance.Archive
