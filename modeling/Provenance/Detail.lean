import Provenance.Text.Quoted

/-!
# Values in full

How errors are shown in full, for those who run the program: each by its name, with all that it
holds.
-/

namespace Provenance

/-- A value that can be shown in full. -/
inductive Detail where
  /-- A number or a bare name. -/
  | word (text : String)
  | quote (content : String)
  /-- A name with values. -/
  | tuple (name : String) (parts : List Detail)
  /-- A name with values that have names of their own. -/
  | fields (name : String) (parts : List (String × Detail))
  deriving Repr

namespace Detail

mutual

/-- A value as it is shown. -/
def display : Detail → String
  | .word text => text
  | .quote content => Text.quotedString content
  | .tuple name parts => name ++ "(" ++ ", ".intercalate (displayAll parts) ++ ")"
  | .fields name parts => name ++ " \x7b " ++ ", ".intercalate (displayFields parts) ++ " \x7d"

/-- Values as they are shown. -/
def displayAll : List Detail → List String
  | [] => []
  | d :: rest => d.display :: displayAll rest

/-- Values after their names. -/
def displayFields : List (String × Detail) → List String
  | [] => []
  | (name, d) :: rest => (name ++ ": " ++ d.display) :: displayFields rest

end

/-- A number. -/
def number (n : Nat) : Detail := .word (toString n)

end Detail

end Provenance
