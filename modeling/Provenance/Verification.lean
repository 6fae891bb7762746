import Provenance.Bytecode.Compare
import Provenance.Compiler.Recompile
import Provenance.Request
import Provenance.Response

/-!
# Verification

A verification checks a request, makes sure of the compiler, fetches the code on the chain, reads
the metadata, compiles again and compares. The steps are taken in this order, and the first that
fails ends the verification.
-/

namespace Provenance

/-- What verifications work with. -/
structure Verifier (ν : Type) where
  recompiler : Recompiler
  client : ChainClient ν

/-- A request that was found to be in order. -/
structure Task where
  chain : Nat
  /-- The address, marked as hexadecimal. -/
  address : String
  version : String
  metadataText : String
  deriving DecidableEq, Repr

namespace Request

/-- Whether a text has nothing but blanks. -/
def isBlank (text : String) : Bool := (Text.trim text.toList).isEmpty

/-- Checks a request whose metadata is a document of a given text. -/
def check (r : Request) (metadataText : String) : Except VerifierError Task :=
  if isBlank r.address || isBlank metadataText || isBlank r.compilerVersion || r.chain < 0 then
    .error (.invalidRequest
      ("address, metadata and compilerVersion are required and chain must not be negative"))
  else if !Address.isValid r.address.toList then .error .invalidAddress
  else .ok {
    chain := r.chain.toNat
    address := String.ofList (Hex.marked r.address.toList)
    version := String.ofList (Version.normalize r.compilerVersion.toList)
    metadataText }

end Request

namespace Verifier

variable {ν : Type}

/-- Whether there is code in the answer of a chain. -/
def hasCode (code : String) : Bool := !(Hex.bare (Text.trim code.toList)).isEmpty

/-- The outcome of a comparison. -/
def outcomeOf (c : Compilation) (v : Bytecode.Verdict) : Outcome :=
  match v.status with
  | .mismatch => .mismatch
  | status =>
    .verified {
      status
      abi := c.artifact.abi
      creationLength := c.artifact.creation.utf8ByteSize
      reviveVersion := c.reviveVersion
      constructorArguments := v.arguments }

/-- Fetches the code on the chain. -/
def fetchCode (v : Verifier ν) (task : Task) : Session ν VerifierError String := do
  let code ← (v.client.askDeployed task.chain task.address).mapError .chain
  if hasCode code then do
    Session.log .debug .verification "Fetched deployed bytecode"
      [("code_len", .integer code.utf8ByteSize)]
    return code
  else Session.fail .bytecodeNotFound

/-- Compiles again. -/
def compile (v : Verifier ν) (m : Metadata) (version : String) :
    Session ν VerifierError Compilation := do
  Session.log .info .verification "Start compiling contract" [("version", .shown version)]
  match ← (v.recompiler.recompile m version).attempt with
  | .ok compiled => return compiled
  | .error e => do
    Session.log .error .verification "Compiling contract failed"
      [("version", .shown version), ("error", .shown e.message)]
    Session.fail (.compiler e)

/-- Does what a request in order asks for. -/
def perform (v : Verifier ν) (task : Task) : Session ν VerifierError Outcome := do
  let _ ← (v.recompiler.cache.ensure task.version).mapError VerifierError.compiler
  let code ← v.fetchCode task
  let metadata ← Session.ofExcept
    ((Metadata.parse task.metadataText).mapError fun flaw => .invalidMetadata flaw.message)
  let compiled ← v.compile metadata task.version
  let verdict ← Bytecode.compare v.client task.chain task.address code compiled.artifact
  Session.log .info .verification "Verification finished"
    [("status", .shown verdict.status.text), ("target", .shown compiled.target.text)]
  return outcomeOf compiled verdict

/-- Checks a request and does what it asks for. -/
def checkAndPerform (v : Verifier ν) (r : Request) : Session ν VerifierError Outcome := do
  match r.metadataText? with
  | none => Session.fail (.invalidRequest "metadata must be a JSON document")
  | some metadataText => do
    Session.record "metadata_len" (.integer metadataText.utf8ByteSize)
    let task ← Session.ofExcept (r.check metadataText)
    v.perform task

/-- Verifies a contract. -/
def verify (v : Verifier ν) (r : Request) : Session ν VerifierError Outcome :=
  Session.within "verify" .verification
    [("chain_id", .integer r.chain), ("address", .shown r.address)] (v.checkAndPerform r)

end Verifier

end Provenance
