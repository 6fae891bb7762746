import Provenance.Text.Utf8

/-!
# Serving

The requests that the service is sent, and what it answers.
-/

namespace Provenance.Http

/-- A request to the service. -/
structure Incoming where
  /-- The name of its method, which may be any. -/
  method : String
  /-- The path, perhaps with a query after it. -/
  target : String
  contentType : Option String
  body : Bytes
  deriving DecidableEq, Repr

/-- The path of a request, without a query. -/
def Incoming.path (i : Incoming) : String :=
  String.ofList (i.target.toList.takeWhile fun c => c ≠ '?' && c ≠ '#')

/-- An answer of the service. -/
structure Outgoing where
  status : Nat
  contentType : Option String
  /-- The methods that would have been right. -/
  allow : Option String
  body : String
  deriving DecidableEq, Repr

namespace Outgoing

/-- An answer of a content type. -/
def ofContent (status : Nat) (contentType body : String) : Outgoing :=
  ⟨status, some contentType, none, body⟩

/-- The answer to a method that is not served. -/
def notAllowed (methods : List String) : Outgoing := ⟨405, none, some (",".intercalate methods), ""⟩

/-- An answer whose body is kept back. -/
def withoutBody (o : Outgoing) : Outgoing := { o with body := "" }

end Outgoing

end Provenance.Http
