import Provenance.Json.Decoder

/-!
# Values without a document

A value that was read before can be decoded in turn. There is no text in which a failure could have
a position, so that only the fault is told.
-/

namespace Provenance.Json

mutual

/-- A value as a node of a document of which nothing is left. -/
def Node.ofValue : Value → Node
  | .null => .null [] []
  | .bool b => .bool [] [] b
  | .number n => .number [] [] (.ok n)
  | .string s => .string [] [] (.ok s)
  | .array items => .array [] (Node.ofValues items) (.closed [])
  | .object members => .object [] (Node.ofMembers members) (.closed [])

/-- The items of a list as nodes. -/
def Node.ofValues : List Value → List Node
  | [] => []
  | v :: rest => Node.ofValue v :: Node.ofValues rest

/-- The members of an object as nodes. -/
def Node.ofMembers : List (String × Value) → List (Key × Node)
  | [] => []
  | (k, v) :: rest => (⟨[], .ok k, []⟩, Node.ofValue v) :: Node.ofMembers rest

end

/-- The value to which a path leads. -/
def Value.follow : List Step → Value → Option Value
  | [], v => some v
  | .field name :: rest, v => (v.get? name).bind (follow rest)
  | .index n :: rest, .array items => (items[n]?).bind (follow rest)
  | .index _ :: _, _ => none

/-- The number of items of a list. -/
def Value.length : Value → Nat
  | .array items => items.length
  | _ => 0

/-- The fault of a failure in a value. What is left over in a list is told by the length of the
list. -/
def Failure.faultIn (v : Value) (f : Failure) : Fault :=
  match f.fault with
  | .trailingCharacters =>
    .wrongLength ((v.follow f.path).map Value.length |>.getD 0) "fewer elements in array"
  | fault => fault

/-- Decodes a value, a failure being given as its message. -/
def decodeValue {α : Type} (d : Decoder α) (v : Value) : Except String α :=
  (d 0 (Node.ofValue v)).mapError fun f => (f.faultIn v).message

end Provenance.Json
