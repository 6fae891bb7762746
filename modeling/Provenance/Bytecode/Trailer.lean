import Provenance.Address
import Provenance.Text.Offset

/-!
# The metadata trailer

Compilers append metadata to the code: some bytes and then their number in two bytes. In hexadecimal
text the trailer of `n` bytes takes `2 * n + 4` characters.
-/

namespace Provenance.Bytecode

open Text

/-- Characters of the trailer's length field. -/
def lengthWidth : Nat := 4

/-- The number of bytes that the length field at the end of a code announces. -/
def announced? (code : List Char) : Option Nat :=
  match drop? (byteLength code - lengthWidth) code with
  | none => none
  | some field => if field.all Hex.isDigit then some (Hex.value field) else none

/-- The code without its trailer. A code that is too short, has no length field or announces more
than it holds is left as it is. -/
def stripTrailer (code : List Char) : List Char :=
  if byteLength code < 6 then code
  else
    match announced? code with
    | none => code
    | some bytes =>
      let width := bytes * 2 + lengthWidth
      if byteLength code < width then code
      else (take? (byteLength code - width) code).getD code

/-- What follows the first occurrence of the compiled creation code in the creation input, marked as
hexadecimal. Nothing when it does not occur or nothing follows. -/
def argumentsAfter (input compiled : List Char) : List Char :=
  if compiled.isEmpty then []
  else
    match find? compiled input with
    | none => []
    | some start =>
      match drop? (start + byteLength compiled) input with
      | none | some [] => []
      | some rest => Hex.mark ++ rest

end Provenance.Bytecode
