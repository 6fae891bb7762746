import Provenance.Json.Decoder
import Provenance.Session

/-!
# HTTP client

Requests are sent, and redirections followed, until there is a reply that is none or there were too
many.
-/

namespace Provenance.Http

/-- The number of redirections that are followed. -/
def maxRedirects : Nat := 10

/-- Whether a status redirects, and then whether the request is to be repeated as it was. Otherwise
only the other place is asked for. -/
def redirects? : Nat → Option Bool
  | 301 | 302 | 303 => some false
  | 307 | 308 => some true
  | _ => none

/-- The request to which a reply redirects. -/
def redirected? (request : Request) (reply : Reply) : Option Request := do
  let repeated ← redirects? reply.status
  let location ← reply.location
  let url ← (request.url.join location.toList).toOption
  if repeated then some { request with url }
  else some { request with method := .get, url, body := none }

variable {ν : Type}

/-- Sends a request and follows redirections, as many as are left. -/
def follow : (left : Nat) → Request → Session ν TransferError Reply
  | left, request => do
    match ← Session.exchange request with
    | none => Session.fail (.notSent request.url.toString)
    | some reply =>
      match redirected? request reply with
      | none => return reply
      | some next =>
        match left with
        | 0 => Session.fail (.tooManyRedirects request.url.toString)
        | left + 1 => follow left next

/-- Sends a request to an address given as text. -/
def send (method : Method) (address : String) (headers : List (String × String))
    (body : Option Bytes) : Session ν TransferError Reply := do
  let url ← Session.ofExcept (target address)
  follow maxRedirects ⟨method, url, headers, body⟩

/-- Asks for what is at an address. -/
def get (address : String) (headers : List (String × String)) : Session ν TransferError Reply :=
  send .get address headers none

/-- Sends a document to an address. -/
def postJson (address : String) (document : Json.Value) : Session ν TransferError Reply :=
  send .post address [("content-type", "application/json"), ("accept", "*/*")]
    (some (Text.encode document.encode))

/-- The body of a reply as a document. -/
def Reply.json {α : Type} (d : Json.Decoder α) (r : Reply) : Except TransferError α := do
  let pieces := Text.pieces (← r.content)
  match Json.decodePieces d pieces with
  | .ok a => .ok a
  | .error f =>
    let p := f.place.position pieces
    .error (.undecodable f.fault.message p.line p.column)

end Provenance.Http
