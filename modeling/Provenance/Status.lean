/-!
# Verdicts

The three ways in which deployed code can relate to compiled code.
-/

namespace Provenance

/-- How deployed code relates to compiled code. -/
inductive Status where
  /-- The same code. -/
  | perfect
  /-- The same code but for the metadata trailer. -/
  | partially
  | mismatch
  deriving DecidableEq, Repr, Inhabited

/-- The name of a status. -/
def Status.text : Status → String
  | .perfect => "perfect"
  | .partially => "partial"
  | .mismatch => "mismatch"

/-- All statuses by name. -/
def Status.all : List (String × Status) :=
  [Status.perfect, .partially, .mismatch].map fun s => (s.text, s)

end Provenance
