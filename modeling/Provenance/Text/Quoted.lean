import Provenance.Text.PrintTable

/-!
# Quoted text

How texts are shown in messages and logs: between double quotes, with a backslash before quotes and
backslashes, names for the common controls, and code points for all that does not print on its own.
-/

namespace Provenance.Text

/-- A number in hexadecimal, small letters, without leading zeros. -/
def hexDigits (n : Nat) : List Char := Nat.toDigits 16 n

/-- One character inside quotes. -/
def quotedChar (c : Char) : List Char :=
  if c = '\x00' then ['\\', '0']
  else if c = '\t' then ['\\', 't']
  else if c = '\r' then ['\\', 'r']
  else if c = '\n' then ['\\', 'n']
  else if c = '"' then ['\\', '"']
  else if c = '\\' then ['\\', '\\']
  else if inRanges c.toNat extending || inRanges c.toNat glyphless then
    ['\\', 'u', '\x7b'] ++ hexDigits c.toNat ++ ['\x7d']
  else [c]

/-- A text between quotes. -/
def quoted (cs : List Char) : List Char := '"' :: (cs.flatMap quotedChar ++ ['"'])

/-- A text between quotes. -/
def quotedString (text : String) : String := String.ofList (quoted text.toList)

end Provenance.Text
