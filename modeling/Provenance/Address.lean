import Provenance.Text.Blank
import Provenance.Text.Lowercase

/-!
# Addresses

The `0x` prefix of hexadecimal text, and the addresses of 20 bytes written in it.
-/

namespace Provenance

namespace Hex

/-- The mark of hexadecimal text. -/
def mark : List Char := ['0', 'x']

/-- Whether a character is a hexadecimal digit of either case. -/
def isDigit (c : Char) : Bool :=
  ('0' ≤ c && c ≤ '9') || ('a' ≤ c && c ≤ 'f') || ('A' ≤ c && c ≤ 'F')

/-- The value of a hexadecimal digit. -/
def digitValue (c : Char) : Nat :=
  if '0' ≤ c && c ≤ '9' then c.toNat - '0'.toNat
  else if 'a' ≤ c && c ≤ 'f' then c.toNat - 'a'.toNat + 10
  else c.toNat - 'A'.toNat + 10

/-- The number that hexadecimal digits write. -/
def value (cs : List Char) : Nat := cs.foldl (fun n c => n * 16 + digitValue c) 0

/-- The text without one `0x` at its start. -/
def bare : List Char → List Char
  | '0' :: 'x' :: rest => rest
  | cs => cs

/-- The text with `0x` at its start, in small letters if the mark had to be added. A blank text and
the word `null` have nothing to mark. -/
def marked (cs : List Char) : List Char :=
  let core := Text.trim cs
  if core.isEmpty || core = ['n', 'u', 'l', 'l'] then []
  else if mark.isPrefixOf cs then cs
  else Text.lowercase (mark ++ cs)

end Hex

namespace Address

/-- Digits of an address. -/
def width : Nat := 40

/-- Whether a text is an address with its mark. -/
def isMarked : List Char → Bool
  | '0' :: 'x' :: digits => digits.length = width && digits.all Hex.isDigit
  | _ => false

/-- Whether a text is an address, with or without `0x`, in any letter case. -/
def isValid (cs : List Char) : Bool := isMarked (Hex.marked cs)

end Address

end Provenance
