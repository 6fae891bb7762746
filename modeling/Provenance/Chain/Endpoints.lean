import Provenance.Chain.Client
import Provenance.Chain.Indexer
import Provenance.Chain.Registry
import Provenance.Http.Client
import Provenance.Http.Status

/-!
# Asking the endpoints of chains

A chain client that asks the endpoints of a registry: the first node of a chain for the code of a
contract, the chain's indexer for the input that created it.
-/

namespace Provenance

open Json

/-- The call by which a node is asked for code. -/
def codeMethod : String := "eth_getCode"

/-- Identifiers of calls are below this one, and above zero. -/
def idBound : Nat := 1000000

/-- The document that asks a node for the code at an address. -/
def codeRequest (address : String) (id : Nat) : Value :=
  .object [
    ("id", .integer id),
    ("jsonrpc", .string "2.0"),
    ("method", .string codeMethod),
    ("params", .array [.string address, .string "latest"])]

/-- The message of an error that a node reports. -/
def rpcMessage (error : Value) : String :=
  match (error.get? "message").bind Value.string? with
  | some message => message
  | none => error.encode

/-- The code in the reply of a node, unless it reports an error. -/
def codeOf (chain : Nat) (reply : Value) : Except ChainError String :=
  match (reply.get? "error").filter fun error => !error.isNull with
  | some error => .error (.rpc chain (rpcMessage error))
  | none =>
    match (reply.get? "result").bind Value.string? with
    | some code => .ok code
    | none => .error (.parse chain "missing result field in eth_getCode response")

/-- The document that asks an indexer for the input that created a contract. -/
def creationRequest (address : String) : Value := .object [("address", .string address)]

/-- The input in the reply of an indexer, unless it reports an error. -/
def creationOf (chain : Nat) (reply : Value) : Except ChainError String :=
  match decodeValue IndexerReply.decoder reply with
  | .error message => .error (.parse chain message)
  | .ok reply =>
    if reply.code = 0 then .ok (reply.creationCode.getD "")
    else .error (.indexer chain reply.message)

namespace Registry

variable {ν : Type}

/-- The document that an endpoint answers to another. -/
def post (chain : Nat) (url : Url) (document : Value) : Session ν ChainError Value := do
  let reply ← (Http.postJson url.toString document).mapError (.request chain)
  Session.log .debug .chain "Received chain response"
    [("url", .shown url.toString), ("status", .shown (Http.statusText reply.status))]
  if Http.isSuccess reply.status then
    Session.ofExcept ((reply.json Decoder.value).mapError (.request chain))
  else Session.fail (.status chain reply.status)

/-- Asks a node for code. -/
def fetchDeployed (r : Registry) (chain : Nat) (address : String) :
    Session ν ChainError String := do
  match (r.get? chain).bind Chain.rpcUrl? with
  | none => Session.fail (.unsupportedChain chain)
  | some url => do
    let id ← Session.draw idBound
    Session.log .debug .chain "Sending RPC request"
      [("url", .shown url.toString), ("method", .text codeMethod)]
    let reply ← post chain url (codeRequest address (id + 1))
    Session.ofExcept (codeOf chain reply)

/-- Asks an indexer for the input that created a contract. -/
def fetchCreation (r : Registry) (chain : Nat) (address : String) :
    Session ν ChainError String := do
  match r.get? chain with
  | none => Session.fail (.unsupportedChain chain)
  | some endpoints =>
    match endpoints.contractFetchAddress with
    | none => Session.fail (.noCreationEndpoint chain)
    | some url => do
      Session.log .debug .chain "Fetching creation bytecode from indexer"
        [("url", .shown url.toString)]
      let reply ← post chain url (creationRequest address)
      Session.ofExcept (creationOf chain reply)

/-- The client of a registry. -/
def client (r : Registry) : ChainClient ν := ⟨r.fetchDeployed, r.fetchCreation⟩

end Registry

end Provenance
