import Provenance.Dictionary

/-!
# The environment

The variables with which the program is started.
-/

namespace Provenance

/-- Variables with their values, by name. -/
abbrev Environment := List (String × String)

namespace Environment

/-- The value of a variable. -/
def value? (e : Environment) (name : String) : Option String := Dictionary.get? name e

/-- Sets a variable, unless it has a value. -/
def offer (e : Environment) (name value : String) : Environment :=
  match e.value? name with
  | some _ => e
  | none => Dictionary.insert name value e

end Environment

end Provenance
