import Provenance.ErrorKind
import Provenance.Http.Message

/-!
# Failures of chain requests
-/

namespace Provenance

/-- Why code could not be read from a chain. -/
inductive ChainError where
  | unsupportedChain (chain : Nat)
  | noCreationEndpoint (chain : Nat)
  | request (chain : Nat) (error : Http.TransferError)
  | status (chain : Nat) (status : Nat)
  /-- The node reported an error. -/
  | rpc (chain : Nat) (message : String)
  /-- The indexer reported an error. -/
  | indexer (chain : Nat) (message : String)
  | parse (chain : Nat) (message : String)
  deriving DecidableEq, Repr

namespace ChainError

/-- The message of an error. -/
def message : ChainError → String
  | .unsupportedChain chain => s!"network {chain} not supported"
  | .noCreationEndpoint chain =>
    s!"network {chain} has no creation bytecode endpoint configured"
  | .request chain error => s!"request to network {chain} failed: {error.message}"
  | .status chain code => s!"network {chain} endpoint responded with status {code}"
  | .rpc chain message => s!"rpc error on network {chain}: {message}"
  | .indexer _ message => s!"fetch create bytecode failed: {message}"
  | .parse chain message => s!"unexpected response from network {chain}: {message}"

/-- What an error means. -/
def kind : ChainError → ErrorKind
  | .unsupportedChain _ => .notFound
  | _ => .fetchFailure

end ChainError

end Provenance
