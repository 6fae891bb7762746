import Provenance.Dictionary
import Provenance.Json.Number

/-!
# Values of a document

The free-form values of a document, and their text: no blanks, and the members of an object in the
order in which they stand.
-/

namespace Provenance.Json

/-- A value of a document. -/
inductive Value where
  | null
  | bool (b : Bool)
  | number (n : Number)
  | string (s : String)
  | array (items : List Value)
  | object (members : List (String × Value))
  deriving Repr, BEq, Inhabited

namespace Value

/-- An integer as a value. -/
def integer (n : Int) : Value := .number (.integer n)

/-- The member of an object under a key. -/
def get? (key : String) : Value → Option Value
  | .object members => Dictionary.get? key members
  | _ => none

/-- The text of a value that is one. -/
def string? : Value → Option String
  | .string s => some s
  | _ => none

/-- Whether the value is `null`. -/
def isNull : Value → Bool
  | .null => true
  | _ => false

end Value

/-! ## Text -/

private def hexDigit (n : Nat) : Char := if n < 10 then Char.ofNat (48 + n) else Char.ofNat (87 + n)

/-- One character of a string: quotes, backslashes and controls are escaped. -/
def escapedChar (c : Char) : List Char :=
  if c = '"' then ['\\', '"']
  else if c = '\\' then ['\\', '\\']
  else if c.toNat = 8 then ['\\', 'b']
  else if c.toNat = 9 then ['\\', 't']
  else if c.toNat = 10 then ['\\', 'n']
  else if c.toNat = 12 then ['\\', 'f']
  else if c.toNat = 13 then ['\\', 'r']
  else if c.toNat < 0x20 then
    ['\\', 'u', '0', '0', hexDigit (c.toNat / 16), hexDigit (c.toNat % 16)]
  else [c]

/-- A string between quotes. -/
def stringText (s : String) : List Char := '"' :: (s.toList.flatMap escapedChar ++ ['"'])

mutual

/-- The text of a value. -/
def Value.text : Value → List Char
  | .null => ['n', 'u', 'l', 'l']
  | .bool true => ['t', 'r', 'u', 'e']
  | .bool false => ['f', 'a', 'l', 's', 'e']
  | .number n => n.text
  | .string s => stringText s
  | .array items => '[' :: Value.itemsText items
  | .object members => '\x7b' :: Value.membersText members

/-- The items of an array and the closing bracket. -/
def Value.itemsText : List Value → List Char
  | [] => [']']
  | [v] => v.text ++ [']']
  | v :: w :: rest => v.text ++ ',' :: Value.itemsText (w :: rest)

/-- The members of an object and the closing brace. -/
def Value.membersText : List (String × Value) → List Char
  | [] => ['\x7d']
  | [(k, v)] => stringText k ++ ':' :: (v.text ++ ['\x7d'])
  | (k, v) :: next :: rest =>
    stringText k ++ ':' :: (v.text ++ ',' :: Value.membersText (next :: rest))

end

/-- The text of a value. -/
def Value.encode (v : Value) : String := String.ofList v.text

end Provenance.Json
