import Provenance.Json.Detached

/-!
# Indexers

An indexer knows with which input a contract was created. Its reply carries a code, which is zero
unless something went wrong, a message that then says what, and the input.
-/

namespace Provenance

open Json

/-- The reply of an indexer. -/
structure IndexerReply where
  code : Int
  message : String
  /-- The input, if the reply has a part for it. -/
  creationCode : Option String
  deriving DecidableEq, Repr

namespace IndexerReply

/-- The part of a reply that holds the input. -/
def dataRecord : Record String where
  name := "IndexerData"
  blank := ""
  fields := [.optional "creation_code" .string fun v _ => v]
  keep := none

/-- The fields of a reply. -/
def record : Record IndexerReply where
  name := "IndexerResponse"
  blank := ⟨0, "", none⟩
  fields := [
    .optional "code" .int64 fun v r => { r with code := v },
    .optional "message" .string fun v r => { r with message := v },
    .optional "data" (.option dataRecord.decoder) fun v r => { r with creationCode := v }]
  keep := none

/-- Reads a reply. -/
def decoder : Decoder IndexerReply := record.decoder

end IndexerReply

end Provenance
