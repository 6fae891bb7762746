/-!
# Kinds of failure
-/

namespace Provenance

/-- What a failure means to the one who asked. -/
inductive ErrorKind where
  | inputValidation
  | notFound
  | compilerUnavailable
  | compileFailure
  | fetchFailure
  | internal
  deriving DecidableEq, Repr

/-- The name of a kind. -/
def ErrorKind.name : ErrorKind → String
  | .inputValidation => "InputValidation"
  | .notFound => "NotFound"
  | .compilerUnavailable => "CompilerUnavailable"
  | .compileFailure => "CompileFailure"
  | .fetchFailure => "FetchFailure"
  | .internal => "Internal"

end Provenance
