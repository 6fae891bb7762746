import Provenance.Json.Value
import Provenance.Text.Quoted
import Provenance.Text.Utf8

/-!
# What can be wrong with a document

A failure is a fault at a place, inside the value that a path leads to. A place in a document is
what is left of it from there on, so that a reader has no counter to keep; `Place.position` turns it
into line and column.
-/

namespace Provenance.Json

/-- What is left of a document. -/
abbrev Rest := List Text.Piece

/-- What stands where another type of value is asked for. -/
inductive Found where
  | null
  | bool (b : Bool)
  | integer (n : Int)
  | double (x : Double)
  | string (s : String)
  | map
  | sequence
  deriving Repr

/-- What is wrong with a document. -/
inductive Fault where
  /-- The document ends inside a value, an object, a list or a string. -/
  | valueEnds
  | objectEnds
  | listEnds
  | stringEnds
  | valueExpected
  | identExpected
  | colonExpected
  | commaOrBraceExpected
  | commaOrBracketExpected
  | quoteExpected
  | keyNotString
  | keyNotNumber
  | trailingComma
  | trailingCharacters
  | invalidNumber
  | numberOutOfRange
  | invalidEscape
  | hexEscapeEnds
  | loneSurrogate
  | controlCharacter
  | invalidCodePoint
  | tooDeep
  /-- A value of another type than the one expected. -/
  | wrongType (found : Found) (expected : String)
  /-- A value of the right type that is not allowed. -/
  | wrongValue (found : Found) (expected : String)
  | wrongLength (length : Nat) (expected : String)
  | unknownVariant (given : String) (known : List String)
  | duplicateField (name : String)
  | missingField (name : String)
  /-- A text that its own rules reject for a reason. -/
  | rejectedText (reason : String) (text : String)
  deriving Repr

/-- How a value is named in a message. -/
def Found.text : Found → String
  | .null => "null"
  | .bool true => "boolean `true`"
  | .bool false => "boolean `false`"
  | .integer n => s!"integer `{String.ofList (integerText n)}`"
  | .double x => s!"floating point `{String.ofList x.text}`"
  | .string s => s!"string {Text.quotedString s}"
  | .map => "map"
  | .sequence => "sequence"

/-- The known names of a variant, for a message. -/
def variantNames (names : List String) : String :=
  match names with
  | [] => "there are no variants"
  | [a] => s!"expected `{a}`"
  | [a, b] => s!"expected `{a}` or `{b}`"
  | _ => "expected one of " ++ ", ".intercalate (names.map fun n => s!"`{n}`")

/-- The message of a fault. -/
def Fault.message : Fault → String
  | .valueEnds => "EOF while parsing a value"
  | .objectEnds => "EOF while parsing an object"
  | .listEnds => "EOF while parsing a list"
  | .stringEnds => "EOF while parsing a string"
  | .valueExpected => "expected value"
  | .identExpected => "expected ident"
  | .colonExpected => "expected `:`"
  | .commaOrBraceExpected => "expected `,` or `\x7d`"
  | .commaOrBracketExpected => "expected `,` or `]`"
  | .quoteExpected => "expected `\"`"
  | .keyNotString => "key must be a string"
  | .keyNotNumber => "invalid value: expected key to be a number in quotes"
  | .trailingComma => "trailing comma"
  | .trailingCharacters => "trailing characters"
  | .invalidNumber => "invalid number"
  | .numberOutOfRange => "number out of range"
  | .invalidEscape => "invalid escape"
  | .hexEscapeEnds => "unexpected end of hex escape"
  | .loneSurrogate => "lone leading surrogate in hex escape"
  | .controlCharacter => "control character (\\u0000-\\u001F) found while parsing a string"
  | .invalidCodePoint => "invalid unicode code point"
  | .tooDeep => "recursion limit exceeded"
  | .wrongType found expected => s!"invalid type: {found.text}, expected {expected}"
  | .wrongValue found expected => s!"invalid value: {found.text}, expected {expected}"
  | .wrongLength length expected => s!"invalid length {length}, expected {expected}"
  | .unknownVariant given known => s!"unknown variant `{given}`, {variantNames known}"
  | .duplicateField name => s!"duplicate field `{name}`"
  | .missingField name => s!"missing field `{name}`"
  | .rejectedText reason text => s!"{reason}: {Text.quotedString text}"

/-- Whether the text is no document, as opposed to a document of another shape than asked for. -/
def Fault.isSyntax : Fault → Bool
  | .wrongType .. | .wrongValue .. | .wrongLength .. | .unknownVariant .. | .duplicateField ..
  | .missingField .. | .rejectedText .. => false
  | _ => true

/-- A place in a document: `ahead` bytes into what is left of it. -/
structure Place where
  rest : Rest
  ahead : Nat
  deriving Repr

/-- The place where `rest` begins. -/
def Place.at (rest : Rest) : Place := ⟨rest, 0⟩

/-- The place after the first byte of `rest`: that of a byte which was looked at and refused. -/
def Place.after (rest : Rest) : Place := ⟨rest, 1⟩

/-- A step from a value to one inside it. -/
inductive Step where
  | field (name : String)
  | index (n : Nat)
  deriving DecidableEq, Repr

/-- A fault, where it was noticed, and the way to the value in which it is. -/
structure Failure where
  fault : Fault
  place : Place
  path : List Step
  deriving Repr

/-- A fault that was noticed at a place. -/
def Fault.at (fault : Fault) (place : Place) : Failure := ⟨fault, place, []⟩

/-- Says in which part of a value a failure lies. -/
def inside {α : Type} (step : Step) : Except Failure α → Except Failure α
  | .ok a => .ok a
  | .error f => .error { f with path := step :: f.path }

/-! ## Line and column -/

/-- A line, counted from one, and the number of bytes read on it. -/
structure Position where
  line : Nat
  column : Nat
  deriving DecidableEq, Repr

/-- The number of bytes of a document part. -/
def sizeOf (pieces : List Text.Piece) : Nat :=
  pieces.foldl (fun total piece => total + piece.size) 0

/-- The position after the first `bytes` bytes of a document, from a position at its start. -/
def Position.advance (start : Position) (bytes : Nat) : List Text.Piece → Position
  | [] => start
  | piece :: rest =>
    if bytes = 0 then start
    else if piece = .char '\n' then advance ⟨start.line + 1, 0⟩ (bytes - 1) rest
    else advance ⟨start.line, start.column + min bytes piece.size⟩ (bytes - piece.size) rest

/-- Line and column of a place in a document. -/
def Place.position (document : List Text.Piece) (place : Place) : Position :=
  Position.advance ⟨1, 0⟩ (sizeOf document - (sizeOf place.rest - place.ahead)) document

/-- The message of a failure with its position in the document. -/
def Failure.message (document : List Text.Piece) (f : Failure) : String :=
  let p := f.place.position document
  s!"{f.fault.message} at line {p.line} column {p.column}"

/-- A path as text: names with a point between, indices in brackets. -/
def pathText : List Step → String
  | [] => ""
  | .field name :: rest => name ++ tail rest
  | .index n :: rest => s!"[{n}]" ++ tail rest
where
  /-- The steps after the first. -/
  tail : List Step → String
  | [] => ""
  | .field name :: rest => "." ++ name ++ tail rest
  | .index n :: rest => s!"[{n}]" ++ tail rest

end Provenance.Json
