import Provenance.Bytecode.Link
import Provenance.Bytecode.Trailer
import Provenance.Chain.Client
import Provenance.Compiler.Resolution
import Provenance.Error
import Provenance.Status

/-!
# Comparing code

Compiled code is compared with the code on a chain in steps: the linked codes themselves, then
without their metadata trailers, and at last, when these differ in content only, the linked creation
code with the beginning of the input that created the contract.
-/

namespace Provenance.Bytecode

open Text

/-- Code without blanks around it, without its mark, in small letters. -/
def normalize (code : String) : List Char := asciiLowercase (Hex.bare (trim code.toList))

/-- How two codes relate. -/
inductive Likeness where
  | equal
  /-- They are equal but for their trailers. -/
  | equalBodies
  /-- Without trailers they have different lengths. -/
  | differentLengths (compiled onChain : Nat)
  /-- Without trailers they have the same length. -/
  | differentContents
  deriving DecidableEq, Repr

/-- How linked code relates to the code on the chain. -/
def likeness (linked onChain : List Char) : Likeness :=
  if linked = onChain then .equal
  else
    let a := stripTrailer linked
    let b := stripTrailer onChain
    if a = b then .equalBodies
    else if byteLength a = byteLength b then .differentContents
    else .differentLengths (byteLength a) (byteLength b)

/-- The result of a comparison. -/
structure Verdict where
  status : Status
  /-- Arguments of the constructor, marked as hexadecimal. -/
  arguments : Option String
  deriving DecidableEq, Repr

namespace Verdict

/-- A result without arguments. -/
def plain (status : Status) : Verdict := ⟨status, none⟩

/-- The result when the creation code begins the input, which tells the arguments. -/
def created (arguments : List Char) : Verdict :=
  ⟨.perfect, if arguments.isEmpty then none else some (String.ofList arguments)⟩

end Verdict

/-- The result of comparing linked creation code with an input. -/
def creationVerdict (linked input : List Char) : Verdict :=
  if linked.isPrefixOf input then .created (argumentsAfter input linked) else .plain .mismatch

variable {ν : Type}

/-- Reports a placeholder. -/
def logResolved (r : Resolved) : Session ν VerifierError Unit :=
  Session.log .debug .bytecode "Resolved library placeholder" [
    ("placeholder", .shown (String.ofList r.placeholder)),
    ("offset", .integer r.offset),
    ("address", .shown (String.ofList r.address))]

/-- Links a template and reports its placeholders. -/
def linkAloud (template actual : List Char) : Session ν VerifierError (List Char) := do
  (scan template actual).1.forM logResolved
  Session.ofExcept ((link template actual).mapError .bytecode)

/-- Compares the creation code with an input. -/
def compareInput (creation : List Char) (input : String) : Session ν VerifierError Verdict := do
  let linked ← linkAloud creation (normalize input)
  let verdict := creationVerdict linked (normalize input)
  if verdict.status = .perfect then
    Session.log .info .bytecode "Creation bytecode matches"
      [("constructor_args_len", .integer ((verdict.arguments.getD "").utf8ByteSize))]
  return verdict

/-- Compares the creation code with the input that created the contract. -/
def compareCreation (client : ChainClient ν) (chain : Nat) (address : String)
    (creation : List Char) : Session ν VerifierError Verdict := do
  Session.log .debug .bytecode
    "Deployed bytecode differs at equal length, checking creation input" []
  let input ← (client.askCreation chain address).mapError .chain
  compareInput creation input

/-- Compares a compiled contract with the code on a chain. -/
def compare (client : ChainClient ν) (chain : Nat) (address : String) (onChain : String)
    (artifact : Artifact) : Session ν VerifierError Verdict := do
  let linked ← linkAloud (normalize artifact.deployed) (normalize onChain)
  match likeness linked (normalize onChain) with
  | .equal => do
    Session.log .info .bytecode "Deployed bytecode matches exactly" []
    return .plain .perfect
  | .equalBodies => do
    Session.log .info .bytecode "Deployed bytecode matches without metadata" []
    return .plain .partially
  | .differentLengths compiled onChain => do
    Session.log .debug .bytecode "Deployed bytecode length differs"
      [("compiled_len", .integer compiled), ("on_chain_len", .integer onChain)]
    return .plain .mismatch
  | .differentContents =>
    let creation := normalize artifact.creation
    if creation.isEmpty then return .plain .mismatch
    else compareCreation client chain address creation

end Provenance.Bytecode
