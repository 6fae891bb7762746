import Provenance.Answer
import Provenance.Http.Serving
import Provenance.Service.Basic
import Provenance.Service.Body

/-!
# Routes

What the service answers to a request, by its path and method: whether it is well, or the result of
a verification.
-/

namespace Provenance

/-- What can be asked of the service. -/
inductive Route where
  /-- Whether it is well. -/
  | health
  | verify
  deriving DecidableEq, Repr

namespace Route

/-- The routes by their paths. -/
def all : List (String × Route) := [("/health", .health), ("/verify", .verify)]

/-- The route of a path. -/
def ofPath? (path : String) : Option Route := (all.find? fun entry => entry.1 = path).map (·.2)

/-- The methods of a route. -/
def methods : Route → List String
  | .health => ["GET", "HEAD"]
  | .verify => ["POST"]

end Route

namespace Service

open Http

variable {ν ε : Type}

/-- The content type of documents. -/
def jsonType : String := "application/json"

/-- The answer to a path that is no route. -/
def notFound : Outgoing :=
  .ofContent 404 jsonType (Json.Value.object [
    ("success", .bool false),
    ("message", .string "The requested resource was not found")]).encode

/-- The answer of a service that is well. -/
def healthy : Outgoing := .ofContent 200 "text/plain; charset=utf-8" "UP"

/-- An answer to a verification as it is sent. -/
def ofAnswer (a : Answer) : Outgoing := .ofContent a.status jsonType a.body.toValue.encode

/-- The text of the number by which a request is known in the log. -/
def requestId (n : Nat) : String :=
  let digits := Nat.toDigits 16 n
  String.ofList (List.replicate (16 - digits.length) '0' ++ digits)

/-- Reports the result of a verification. -/
def report : Except VerifierError Outcome → Session ν ε Unit
  | .ok outcome =>
    Session.log .info .route "Verification request served"
      [("status", .shown (Response.ofOutcome outcome).status.text)]
  | .error e =>
    Session.log .warn .route "Verification request failed"
      [("error", .shown e.message), ("kind", .shown e.kind.name)]

/-- Verifies what a request asks for, if it asks for something. -/
def verifyBody (s : Service) (i : Incoming) : Session ν ε Answer := do
  match readRequest i.contentType i.body with
  | .error flaw => return .ofRejection flaw.message
  | .ok request => do
    let result ← (s.verifier.verify request).attempt
    report result
    return .ofResult result

/-- Answers a verification request. -/
def answerVerify (s : Service) (i : Incoming) : Session ν ε Answer := do
  let n ← Session.draw (Nat.pow 2 64)
  Session.within "handle_verify_request" .route [("request_id", .shown (requestId n))]
    (s.verifyBody i)

/-- Answers a request that is sent to a route by one of its methods. -/
def answerRoute (s : Service) (i : Incoming) : Route → Session ν ε Outgoing
  | .health => return healthy
  | .verify => do return ofAnswer (← s.answerVerify i)

/-- Answers a request, for now with a body whatever the method. -/
def answerInFull (s : Service) (i : Incoming) : Session ν ε Outgoing :=
  match Route.ofPath? i.path with
  | none => return notFound
  | some route =>
    if route.methods.contains i.method then s.answerRoute i route
    else return .notAllowed route.methods

/-- Answers a request. No body is sent to those who ask for none. -/
def answer (s : Service) (i : Incoming) : Session ν ε Outgoing := do
  let o ← s.answerInFull i
  return if i.method = "HEAD" then o.withoutBody else o

end Service

end Provenance
