import Provenance.Chain.Error
import Provenance.Session

/-!
# Chain clients

What can be asked about the contracts on the supported chains.
-/

namespace Provenance

/-- Someone who can be asked about contracts, by chain and address. -/
structure ChainClient (ν : Type) where
  /-- The code that the contract runs, marked as hexadecimal; only the mark where there is none. -/
  deployedCode : Nat → String → Session ν ChainError String
  /-- The input of the transaction that created the contract. -/
  creationCode : Nat → String → Session ν ChainError String

namespace ChainClient

variable {ν : Type}

/-- Asks for the code that a contract runs. -/
def askDeployed (client : ChainClient ν) (chain : Nat) (address : String) :
    Session ν ChainError String :=
  Session.delegate (.deployedCode chain address) (client.deployedCode chain address)

/-- Asks for the input that created a contract. -/
def askCreation (client : ChainClient ν) (chain : Nat) (address : String) :
    Session ν ChainError String :=
  Session.delegate (.creationCode chain address) (client.creationCode chain address)

end ChainClient

end Provenance
