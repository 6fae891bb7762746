import Provenance.Json.Decoder
import Provenance.Url.Basic

/-!
# Supported chains

The registry says for each chain, by its number, where its nodes and its indexer are asked.
-/

namespace Provenance

open Json

/-- The endpoints of a chain. -/
structure Chain where
  /-- Nodes, of which the first is asked. -/
  rpc : List Url
  /-- The indexer that knows how contracts were created. -/
  contractFetchAddress : Option Url
  deriving Repr

namespace Chain

/-- The node that is asked. -/
def rpcUrl? (c : Chain) : Option Url := c.rpc.head?

/-- Reads an address. -/
def urlDecoder : Decoder Url
  | _, .string _ stop (.ok s) =>
    match Url.parse s.toList with
    | .ok u => .ok u
    | .error e => .error ((Fault.rejectedText e.message s).at (.at stop))
  | _, n => .error (n.mismatch "a string representing an URL")

/-- The fields of a chain. -/
def record : Record Chain where
  name := "ChainInfo"
  blank := ⟨[], none⟩
  fields := [
    .necessary "rpc" (.list urlDecoder) fun v c => { c with rpc := v },
    .optional "contractFetchAddress" (.option urlDecoder) fun v c =>
      { c with contractFetchAddress := v }]
  keep := none

end Chain

/-- The supported chains by number. -/
structure Registry where
  chains : List (Nat × Chain)
  deriving Repr

namespace Registry

/-- Why a text is no registry. -/
inductive Flaw where
  | undecodable (message : String)
  /-- A chain cannot be asked. -/
  | noEndpoint (chain : Nat)
  deriving DecidableEq, Repr

/-- The message of a flaw. -/
def Flaw.message : Flaw → String
  | .undecodable message => s!"Failed to parse chains file: {message}"
  | .noEndpoint chain => s!"Chain {chain} has no rpc endpoint"

/-- Reads a registry, in which every chain has a node. -/
def parse (text : String) : Except Flaw Registry :=
  match decodeText (.dictionary .number Chain.record.decoder) text with
  | .error message => .error (.undecodable message)
  | .ok chains =>
    match chains.find? fun entry => entry.2.rpc.isEmpty with
    | some (chain, _) => .error (.noEndpoint chain)
    | none => .ok ⟨chains⟩

/-- The chain of a number. -/
def get? (r : Registry) (chain : Nat) : Option Chain := Dictionary.get? chain r.chains

end Registry

end Provenance
