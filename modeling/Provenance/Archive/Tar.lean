import Provenance.Archive.Gzip
import Provenance.Text.Blank

/-!
# Archives

An archive is a sequence of members, each a header block and its content in blocks. A block of zeros
ends it. Names that are too long for a header are given by members of their own before it.
-/

namespace Provenance.Archive

/-- Bytes of a block. -/
def blockSize : Nat := 512

/-! ## Reading a stream -/

namespace Stream

/-- Reads a block. At the end of the stream there is none. -/
def block (s : Stream) : Except Flaw (Option (Bytes × Stream)) :=
  if blockSize ≤ s.bytes.length then
    .ok (some (s.bytes.take blockSize, { s with bytes := s.bytes.drop blockSize }))
  else
    match s.flaw with
    | some flaw => .error flaw
    | none => if s.bytes.isEmpty then .ok none else .error .brokenBlock

/-- Reads `n` bytes, or as many as there are. -/
def read (n : Nat) (s : Stream) : Except Flaw Bytes :=
  if n ≤ s.bytes.length then .ok (s.bytes.take n)
  else
    match s.flaw with
    | some flaw => .error flaw
    | none => .ok s.bytes

/-- Passes over `n` bytes. -/
def skip (n : Nat) (s : Stream) : Except Flaw Stream :=
  if n ≤ s.bytes.length then .ok { s with bytes := s.bytes.drop n }
  else .error (s.flaw.getD .endsInSkip)

end Stream

/-! ## Headers -/

/-- A stretch of a block. -/
def field (start size : Nat) (block : Bytes) : Bytes := (block.drop start).take size

/-- A text field up to its first zero. -/
def textField (start size : Nat) (block : Bytes) : Bytes :=
  (field start size block).takeWhile (· ≠ 0)

/-- The number that octal digits write. -/
def octal? (text : List Char) : Option Nat :=
  let digits := match Text.trim text with
    | '+' :: rest => rest
    | cs => cs
  if digits.isEmpty || !digits.all (fun c => '0' ≤ c && c ≤ '7') then none
  else
    let n := digits.foldl (fun n c => n * 8 + (c.toNat - 48)) 0
    if n < Nat.pow 2 64 then some n else none

/-- A number field: octal digits, or with the highest bit set a number of eight bytes at its end. -/
def numberField (start size : Nat) (block : Bytes) : Except Flaw Nat :=
  let bytes := field start size block
  if 128 ≤ (bytes.headD 0).toNat then
    .ok ((bytes.drop (size - 8)).foldl (fun n b => n * 256 + b.toNat) 0)
  else
    match (Text.text? (bytes.takeWhile (· ≠ 0))).bind fun s => octal? s.toList with
    | some n => .ok n
    | none => .error .badNumber

/-- The header formats that know special members. -/
inductive Format where
  | old
  | ustar
  | gnu
  deriving DecidableEq, Repr

/-- The header of a member. -/
structure Header where
  format : Format
  /-- The character that tells what kind of member it is. -/
  kind : UInt8
  size : Nat
  path : Bytes
  deriving Repr

/-- The format of a header. -/
def formatOf (block : Bytes) : Format :=
  let mark := field 257 8 block
  if mark = Text.encode "ustar\x0000" then .ustar
  else if mark = Text.encode "ustar  \x00" then .gnu
  else .old

/-- The path in a header. The one format has a second field for what stands before it. -/
def pathOf (block : Bytes) : Bytes :=
  let name := textField 0 100 block
  let front := textField 345 155 block
  if formatOf block = .ustar && !front.isEmpty then front ++ 0x2F :: name else name

/-- The sum of the bytes of a header, those of the sum itself being taken for blanks. -/
def blockSum (block : Bytes) : Nat :=
  (block.take 148 ++ block.drop 156).foldl (fun total b => total + b.toNat) (8 * 32)

/-- Reads a header. -/
def Header.ofBlock (block : Bytes) : Except Flaw Header := do
  let sum ← numberField 148 8 block
  if sum % Nat.pow 2 32 ≠ blockSum block then throw .badBlockChecksum
  let size ← numberField 124 12 block
  return ⟨formatOf block, (field 156 1 block).headD 0, size, pathOf block⟩

namespace Header

/-- Whether the member is a regular file. -/
def isFile (h : Header) : Bool := h.kind = 0 || h.kind = 0x30

/-- Whether the member has a kind that only the newer formats know. -/
def isSpecial (h : Header) (kind : Char) : Bool :=
  h.format ≠ .old && h.kind.toNat = kind.toNat

end Header

/-! ## Extended descriptions -/

/-- The parts of some bytes between separators. -/
def splitAtByte (separator : UInt8) : Bytes → List Bytes
  | [] => [[]]
  | b :: rest =>
    if b = separator then [] :: splitAtByte separator rest
    else
      match splitAtByte separator rest with
      | [] => [[b]]
      | part :: parts => (b :: part) :: parts

/-- Key and value of a line `length key=value`, if it has that length. -/
def keyValue? (line : Bytes) : Option (Bytes × Bytes) := do
  let digits := line.takeWhile (· ≠ 0x20)
  let rest := line.drop (digits.length + 1)
  let announced ← (Text.text? digits).bind fun s =>
    if !s.isEmpty && s.toList.all Char.isDigit then s.toNat? else none
  if announced ≠ line.length + 1 || rest.isEmpty then none
  let key := rest.takeWhile (· ≠ 0x3D)
  if key.length = rest.length then none else some (key, rest.drop (key.length + 1))

/-- The lines of a description, as far as it goes. -/
def descriptionLines (description : Bytes) : List (Option (Bytes × Bytes)) :=
  ((splitAtByte 0x0A description).takeWhile (!List.isEmpty ·)).map keyValue?

/-- The path that a description gives. Lines that are none are passed over. -/
def describedPath? (description : Bytes) : Option Bytes :=
  ((descriptionLines description).filterMap id).findSome? fun (k, v) =>
    if k = Text.encode "path" then some v else none

/-- The size that a description gives. A line that is none ends it. -/
def describedSize? (description : Bytes) : Option Nat := do
  let known := ((descriptionLines description).takeWhile Option.isSome).filterMap id
  let v ← known.findSome? fun (k, v) => if k = Text.encode "size" then some v else none
  let text ← Text.text? v
  if text.toList.all Char.isDigit then text.toNat? else none

/-! ## Members -/

/-- A member. -/
structure Member where
  path : Bytes
  isFile : Bool
  /-- Its content, or why it cannot be read. -/
  content : Except Flaw Bytes
  /-- What follows it. -/
  rest : Except Flaw Stream

/-- What was told about the next member so far. -/
structure Descriptions where
  longName : Option Bytes
  longLink : Option Bytes
  extended : Option Bytes

namespace Descriptions

/-- Nothing was told. -/
def none : Descriptions := ⟨.none, .none, .none⟩

/-- Whether nothing was told. -/
def isNone (d : Descriptions) : Bool :=
  d.longName.isNone && d.longLink.isNone && d.extended.isNone

/-- The path of the next member. -/
def path (d : Descriptions) (h : Header) : Bytes :=
  match d.longName with
  | some name => if name.getLast? = some 0 then name.dropLast else name
  | .none => (d.extended.bind describedPath?).getD h.path

/-- The size of the next member. -/
def size (d : Descriptions) (h : Header) : Nat :=
  if h.size = 0 then (d.extended.bind describedSize?).getD 0 else h.size

end Descriptions

/-- The size of a content with what fills its last block. -/
def paddedSize (size : Nat) : Nat := (size + (blockSize - 1)) / blockSize * blockSize

/-- Reads the next member. Each block takes bytes, so as many steps as there are bytes are enough.
-/
def nextMember : (fuel : Nat) → Descriptions → Stream → Except Flaw (Option Member)
  | 0, _, _ => .ok .none
  | fuel + 1, told, s => do
    let absent : Except Flaw (Option Member) :=
      if told.isNone then .ok .none else .error .describedNothing
    match ← s.block with
    | .none => absent
    | some (block, s) =>
      if block.all (· = 0) then absent
      else do
        let h ← Header.ofBlock block
        let size := told.size h
        let describe (known : Option Bytes) (tell : Bytes → Descriptions) :
            Except Flaw (Option Member) :=
          match known with
          | some _ => .error .describedTwice
          | .none => do
            let content ← s.read size
            let s ← s.skip (paddedSize size)
            nextMember fuel (tell content) s
        if h.isSpecial 'L' then describe told.longName fun c => { told with longName := some c }
        else if h.isSpecial 'K' then
          describe told.longLink fun c => { told with longLink := some c }
        else if h.isSpecial 'x' then
          describe told.extended fun c => { told with extended := some c }
        else if h.kind.toNat = 'S'.toNat && h.format ≠ .gnu then .error .strangeSparse
        else return some ⟨told.path h, h.isFile, s.read size, s.skip (paddedSize size)⟩

/-- The components of a path, without those that stand for nothing. -/
def pathComponents (path : Bytes) : List Bytes :=
  (splitAtByte 0x2F path).filter fun c => c ≠ [] && c ≠ [0x2E]

/-- The last component of a path, if it is a name and text. -/
def lastName? (path : Bytes) : Option String :=
  ((pathComponents path).getLast?.bind Text.text?).filter (· ≠ "..")

/-- Finds the content of the first regular file whose name begins in a certain way. -/
def findFile (front : String) : (fuel : Nat) → Stream → Except Flaw (Option Bytes)
  | 0, _ => .ok .none
  | fuel + 1, s => do
    match ← nextMember (s.bytes.length + 1) .none s with
    | .none => return .none
    | some m =>
      let isWanted := m.isFile && match lastName? m.path with
        | some name => front.toList.isPrefixOf name.toList
        | .none => false
      if isWanted then (m.content).map some
      else do
        let rest ← m.rest
        findFile front fuel rest

/-- Finds a file in a compressed archive by the beginning of its name. -/
def extract (front : String) (archive : Bytes) : Except Flaw (Option Bytes) :=
  let s := gunzip archive
  findFile front (s.bytes.length + 1) s

end Provenance.Archive
