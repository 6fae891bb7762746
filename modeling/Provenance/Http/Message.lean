import Provenance.Url.Basic

/-!
# HTTP messages

Requests, and what becomes of them: a reply, or a connection that breaks.
-/

namespace Provenance.Http

/-- The methods in use. -/
inductive Method where
  | get
  | post
  deriving DecidableEq, Repr

/-- The name of a method. -/
def Method.text : Method → String
  | .get => "GET"
  | .post => "POST"

/-- A request to a server. -/
structure Request where
  method : Method
  url : Url
  headers : List (String × String)
  body : Option Bytes
  deriving Repr

/-- The reply of a server. -/
structure Reply where
  status : Nat
  /-- Where a redirection leads. -/
  location : Option String
  body : Bytes
  /-- Whether the body arrived as long as it was announced. -/
  isComplete : Bool
  deriving Repr

/-- Whether replies of a status never have a body. -/
def isBodiless (status : Nat) : Bool := status < 200 || status = 204 || status = 304

/-- Whether a status is that of a success. -/
def isSuccess (status : Nat) : Bool := 200 ≤ status && status < 300

/-- Why a request got no usable reply. -/
inductive TransferError where
  /-- No request could be made from the text given as its address. -/
  | notBuilt (reason : Url.UrlError)
  /-- No request could be made to an address, for all that it is one. -/
  | notBuiltFor (url : String)
  | notSent (url : String)
  | tooManyRedirects (url : String)
  /-- The body is shorter than was announced. -/
  | brokenOff
  /-- The body is not the document that it should be, for a reason found at a line and a column. -/
  | undecodable (reason : String) (line column : Nat)
  deriving DecidableEq, Repr

/-- The message of an error. -/
def TransferError.message : TransferError → String
  | .notBuilt _ => "builder error"
  | .notBuiltFor url => s!"builder error for url ({url})"
  | .notSent url => s!"error sending request for url ({url})"
  | .tooManyRedirects url => s!"error following redirect for url ({url})"
  | .brokenOff | .undecodable .. => "error decoding response body"

/-- The body of a reply. -/
def Reply.content (r : Reply) : Except TransferError Bytes :=
  if isBodiless r.status then .ok []
  else if r.isComplete then .ok r.body
  else .error .brokenOff

/-- The address that is asked, without user and password. -/
def target (text : String) : Except TransferError Url :=
  match Url.parse text.toList with
  | .error reason => .error (.notBuilt reason)
  | .ok url =>
    let isWeb := url.scheme = ['h', 't', 't', 'p'] || url.scheme = ['h', 't', 't', 'p', 's']
    if url.host.isSome && isWeb then .ok { url with user := [], password := [] }
    else .error (.notBuiltFor url.toString)

end Provenance.Http
