import Provenance.Address
import Provenance.Text.Utf8

/-!
# Percent encoding

Bytes that may not stand in a part of an address are written as `%` and two hexadecimal digits. Each
part has its own set of ASCII characters that are written so; all other bytes beyond ASCII are too.
-/

namespace Provenance.Url

/-- Controls of ASCII. -/
def isControl (c : Char) : Bool := c.toNat < 0x20 || c.toNat = 0x7F

/-- Characters encoded in a fragment. -/
def inFragmentSet (c : Char) : Bool := isControl c || [' ', '"', '<', '>', '\x60'].contains c

/-- Characters encoded in a path. -/
def inPathSet (c : Char) : Bool := inFragmentSet c || ['#', '?', '\x7b', '\x7d'].contains c

/-- Characters encoded in user names and passwords. -/
def inUserSet (c : Char) : Bool :=
  inPathSet c || ['/', ':', ';', '=', '@', '[', '\\', ']', '^', '|'].contains c

/-- Characters encoded in a query; the apostrophe only in addresses of special schemes. -/
def inQuerySet (special : Bool) (c : Char) : Bool :=
  isControl c || [' ', '"', '#', '<', '>'].contains c || (special && c = '\'')

private def upperDigit (n : Nat) : Char :=
  if n < 10 then Char.ofNat (48 + n) else Char.ofNat (55 + n)

/-- A byte as `%` and two digits. -/
def percentByte (b : UInt8) : List Char :=
  ['%', upperDigit (b.toNat / 16), upperDigit (b.toNat % 16)]

/-- A character, encoded if it is in the set or beyond ASCII. -/
def percentChar (set : Char → Bool) (c : Char) : List Char :=
  if c.toNat < 0x80 && !set c then [c]
  else (Text.encode (String.singleton c)).flatMap percentByte

/-- A text with the characters of a set encoded. -/
def percentEncode (set : Char → Bool) (cs : List Char) : List Char := cs.flatMap (percentChar set)

/-- The bytes of a text whose encoded bytes are decoded. -/
def percentDecode : List Char → Bytes
  | [] => []
  | '%' :: a :: b :: rest =>
    if Hex.isDigit a && Hex.isDigit b then (Hex.value [a, b]).toUInt8 :: percentDecode rest
    else Text.encode (String.singleton '%') ++ percentDecode (a :: b :: rest)
  | c :: rest => Text.encode (String.singleton c) ++ percentDecode rest

end Provenance.Url
