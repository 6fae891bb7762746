/-!
# Bytes as text

A byte sequence is read as UTF-8 without loss: as characters, and between them the stretches of
bytes that encode none. What the bytes are wanted for decides what a stray stretch means:
`text?` refuses it, `lossyText` puts one replacement character in its place.
-/

namespace Provenance

/-- A file's content, a message body, what a program writes. -/
abbrev Bytes := List UInt8

namespace Text

/-- A part of a byte sequence read as UTF-8. -/
inductive Piece where
  /-- A well-formed character. -/
  | char (c : Char)
  /-- Bytes that start no character, or a character broken off before its end. -/
  | stray (bytes : Bytes)
  deriving DecidableEq, Repr

/-- The number of bytes that a piece was read from. -/
def Piece.size : Piece → Nat
  | .char c => c.utf8Size
  | .stray bytes => bytes.length

/-- What the first byte of a character announces. -/
structure Lead where
  /-- Bytes that follow. -/
  owed : Nat
  /-- Least and greatest value of the next byte: together with the lead byte they keep overlong
  forms, surrogates and codes beyond the last one out. -/
  low : UInt8
  high : UInt8
  /-- The code's bits in the lead byte. -/
  bits : Nat

/-- The announcement of a first byte, `none` when no character starts with it. -/
def Lead.ofByte? (b : UInt8) : Option Lead :=
  if b < 0x80 then some ⟨0, 0x80, 0xBF, b.toNat⟩
  else if b < 0xC2 then none
  else if b < 0xE0 then some ⟨1, 0x80, 0xBF, b.toNat - 0xC0⟩
  else if b = 0xE0 then some ⟨2, 0xA0, 0xBF, 0⟩
  else if b = 0xED then some ⟨2, 0x80, 0x9F, 0xD⟩
  else if b < 0xF0 then some ⟨2, 0x80, 0xBF, b.toNat - 0xE0⟩
  else if b = 0xF0 then some ⟨3, 0x90, 0xBF, 0⟩
  else if b < 0xF4 then some ⟨3, 0x80, 0xBF, b.toNat - 0xF0⟩
  else if b = 0xF4 then some ⟨3, 0x80, 0x8F, 4⟩
  else none

/-- Reads the bytes still owed to a character whose code so far is `code` and whose bytes so far,
last one first, are `taken`. -/
def finishChar : (owed : Nat) → (low high : UInt8) → (code : Nat) → (taken : Bytes) → Bytes →
    Piece × Bytes
  | 0, _, _, code, _, rest => (.char (Char.ofNat code), rest)
  | _ + 1, _, _, _, taken, [] => (.stray taken.reverse, [])
  | owed + 1, low, high, code, taken, b :: rest =>
    if low ≤ b ∧ b ≤ high then
      finishChar owed 0x80 0xBF (code * 64 + b.toNat % 64) (b :: taken) rest
    else
      (.stray taken.reverse, b :: rest)

/-- The first piece of `b :: rest` and what follows it. -/
def nextPiece (b : UInt8) (rest : Bytes) : Piece × Bytes :=
  match Lead.ofByte? b with
  | none => (.stray [b], rest)
  | some lead => finishChar lead.owed lead.low lead.high lead.bits [b] rest

/-- The pieces of a byte sequence, at most `fuel` of them. -/
def piecesWithin : (fuel : Nat) → Bytes → List Piece
  | 0, _ => []
  | _ + 1, [] => []
  | fuel + 1, b :: rest =>
    let (piece, rest') := nextPiece b rest
    piece :: piecesWithin fuel rest'

/-- A byte sequence as characters and stray bytes. -/
def pieces (bytes : Bytes) : List Piece := piecesWithin bytes.length bytes

/-- The pieces of a text: its characters. -/
def piecesOf (text : String) : List Piece := text.toList.map Piece.char

/-- The bytes of a text. -/
def encode (text : String) : Bytes := text.toUTF8.toList

/-- The character of a piece that is one. -/
def Piece.char? : Piece → Option Char
  | .char c => some c
  | .stray _ => none

/-- The text that the bytes encode, if they encode one. -/
def text? (bytes : Bytes) : Option String :=
  ((pieces bytes).mapM Piece.char?).map String.ofList

/-- The text of the bytes with a replacement character for each stray stretch. -/
def lossyText (bytes : Bytes) : String :=
  String.ofList ((pieces bytes).map fun
    | .char c => c
    | .stray _ => Char.ofNat 0xFFFD)

end Text

end Provenance
