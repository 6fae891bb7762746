import Provenance.Error
import Provenance.Response

/-!
# Answers

How the results of verifications are answered: by a status, which tells the kind of a failure, and a
body that is the same record in every case.
-/

namespace Provenance

/-- The answer to a verification request. -/
structure Answer where
  status : Nat
  body : Response
  deriving Repr

namespace Answer

/-- The status of a kind of failure. -/
def statusOf : ErrorKind → Nat
  | .inputValidation => 400
  | .notFound => 404
  | .fetchFailure => 502
  | .compilerUnavailable | .compileFailure | .internal => 500

/-- The answer to a verification that failed. -/
def ofError (e : VerifierError) : Answer := ⟨statusOf e.kind, .failure e.message⟩

/-- The answer to a body that is no request. -/
def ofRejection (message : String) : Answer := ⟨400, .failure message⟩

/-- The answer to a verification that ran to its end. -/
def ofOutcome (o : Outcome) : Answer := ⟨200, .ofOutcome o⟩

/-- The answer to a verification. -/
def ofResult : Except VerifierError Outcome → Answer
  | .ok o => ofOutcome o
  | .error e => ofError e

end Answer

end Provenance
