import Provenance.Json.Decoder

/-!
# Verification requests

The body of a request: an address on a chain, the compiler's version, and the metadata document,
given as a text or as the document itself.
-/

namespace Provenance

open Json

/-- What is asked to be verified. -/
structure Request where
  address : String
  /-- The metadata document: its text, or an object. -/
  metadata : Value
  chain : Int
  compilerVersion : String
  deriving Repr

namespace Request

/-- A request without any field. -/
def blank : Request := ⟨"", .null, 0, ""⟩

/-- The fields of a request. -/
def record : Record Request where
  name := "VerificationRequest"
  blank := blank
  fields := [
    .optional "address" Decoder.string fun v r => { r with address := v },
    .optional "metadata" Decoder.value fun v r => { r with metadata := v },
    .optional "chain" Decoder.int64 fun v r => { r with chain := v },
    .optional "compilerVersion" Decoder.string fun v r => { r with compilerVersion := v }]
  keep := none

/-- Reads a request. -/
def decoder : Decoder Request := record.decoder

/-- A request as a document. -/
def toValue (r : Request) : Value :=
  .object [
    ("address", .string r.address),
    ("metadata", r.metadata),
    ("chain", .integer r.chain),
    ("compilerVersion", .string r.compilerVersion)]

/-- The text of the metadata document, empty when it is absent; `none` if it is no document. -/
def metadataText? (r : Request) : Option String :=
  match r.metadata with
  | .null => some ""
  | .string text => some text
  | .object members => some (Value.object members).encode
  | _ => none

end Request

end Provenance
