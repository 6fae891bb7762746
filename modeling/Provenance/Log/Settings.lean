import Provenance.Environment.Basic
import Provenance.Log.Filter
import Provenance.Log.Line

/-!
# Log settings

The environment tells which events are logged and in which of the two forms.
-/

namespace Provenance.Log

/-- What is logged, and how. -/
structure Settings where
  filter : Filter
  /-- Whether every line is a document. -/
  asDocuments : Bool
  deriving Repr

namespace Settings

/-- The variable with the filter. -/
def filterVariable : String := "RUST_LOG"

/-- The variable with the form. -/
def formVariable : String := "LOG_FORMAT"

/-- The directives of the filter that is used where none is given, or none that can be read. -/
def defaultFilter : String := "verifier=info"

/-- The settings of an environment. -/
def ofEnvironment (e : Environment) : Settings where
  filter := ((e.value? filterVariable).bind Filter.parse?).getD (Filter.parse defaultFilter)
  asDocuments := e.value? formVariable = some "json"

/-- The line of a record, if it is logged. -/
def line? (s : Settings) (time : String) (r : Record) : Option String :=
  (s.filter.keep? r).map (if s.asDocuments then jsonLine time else prettyLine time)

end Settings

end Provenance.Log
