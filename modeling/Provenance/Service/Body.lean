import Provenance.Http.MediaType
import Provenance.Request
import Provenance.Text.Blank

/-!
# Bodies of requests

The body of a verification request is a document of limited size. What follows the document is
ignored.
-/

namespace Provenance.Service

/-- The bytes that a body may have. Metadata documents hold every source file of a contract. -/
def maxBody : Nat := 32 * 1024 * 1024

/-- Why a body is no request. -/
inductive BodyFlaw where
  /-- It is not said to be a document. -/
  | unexpectedType
  | tooLong
  | noDocument (detail : String)
  /-- It is a document of another shape. -/
  | otherShape (detail : String)
  deriving DecidableEq, Repr

/-- The message of a flaw. -/
def BodyFlaw.message : BodyFlaw → String
  | .unexpectedType => "Expected request with `Content-Type: application/json`"
  | .tooLong => "Failed to buffer the request body: length limit exceeded"
  | .noDocument detail => s!"Failed to parse the request body as JSON: {detail}"
  | .otherShape detail =>
    s!"Failed to deserialize the JSON body into the target type: {detail}"

/-- Whether a content type is that of documents. -/
def isJsonType (contentType : Option String) : Bool :=
  match contentType.bind fun text => Http.MediaType.parse? (Text.trimWhile isGap text.toList) with
  | some t => t.isJson
  | none => false
where
  /-- The blanks around the value of a header. -/
  isGap (c : Char) : Bool := c = ' ' || c = '\t'

/-- A failure with the way to the value in which it is. -/
def failureText (document : List Text.Piece) (f : Json.Failure) : String :=
  match f.path with
  | [] => f.message document
  | path => s!"{Json.pathText path}: {f.message document}"

/-- The flaw in a body that could not be read. -/
def flawOf (document : List Text.Piece) (f : Json.Failure) : BodyFlaw :=
  if f.fault.isSyntax then .noDocument (failureText document f)
  else .otherShape (failureText document f)

/-- Reads a request from a body. -/
def readRequest (contentType : Option String) (body : Bytes) : Except BodyFlaw Request :=
  if !isJsonType contentType then .error .unexpectedType
  else if maxBody < body.length then .error .tooLong
  else
    let document := Text.pieces body
    (Json.decodeHead Request.decoder document).mapError (flawOf document)

end Provenance.Service
