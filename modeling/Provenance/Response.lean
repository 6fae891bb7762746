import Provenance.Json.Decoder
import Provenance.Status

/-!
# Verification responses

Every outcome of a verification is answered by a record of the same shape.
-/

namespace Provenance

open Json

/-- The data of a contract whose code was found to match. -/
structure VerifiedContract where
  status : Status
  abi : List Value
  /-- Characters of the compiled creation code. -/
  creationLength : Nat
  reviveVersion : Option String
  /-- Arguments of the constructor, marked as hexadecimal. -/
  constructorArguments : Option String
  deriving Repr

/-- The result of a verification that ran to its end. -/
inductive Outcome where
  | verified (contract : VerifiedContract)
  | mismatch
  deriving Repr

/-- The body of an answer. -/
structure Response where
  status : Status
  message : String
  abi : Option (List Value)
  creationLength : Option Nat
  reviveVersion : Option String
  constructorArguments : Option String
  deriving Repr, BEq, Inhabited

namespace Response

/-- The answer to a request that failed or did not match. -/
def failure (message : String) : Response := ⟨.mismatch, message, none, none, none, none⟩

/-- The answer to a verification that ran to its end. -/
def ofOutcome : Outcome → Response
  | .verified c =>
    ⟨c.status, "ok", some c.abi, some c.creationLength, c.reviveVersion, c.constructorArguments⟩
  | .mismatch => failure "bytecode mismatch"

/-- The fields of a response. -/
def record : Record Response where
  name := "VerificationResponse"
  blank := failure ""
  fields := [
    .necessary "verified_status" (Decoder.variant Status.all) fun v r => { r with status := v },
    .necessary "message" Decoder.string fun v r => { r with message := v },
    .optional "abi" (.option (.list .value)) fun v r => { r with abi := v },
    .optional "creation_bytecode_length" (.option .length) fun v r =>
      { r with creationLength := v },
    .optional "revive_version" (.option .string) fun v r => { r with reviveVersion := v },
    .optional "constructor_args" (.option .string) fun v r =>
      { r with constructorArguments := v }]
  keep := none

/-- Reads a response. -/
def decoder : Decoder Response := record.decoder

/-- A member that is left out when it has no value. -/
private def member? (name : String) (value : Option Value) : List (String × Value) :=
  match value with
  | some v => [(name, v)]
  | none => []

/-- A response as a document. -/
def toValue (r : Response) : Value :=
  .object ([("verified_status", .string r.status.text), ("message", .string r.message)] ++
    member? "abi" (r.abi.map .array) ++
    member? "creation_bytecode_length" (r.creationLength.map fun n => .integer n) ++
    member? "revive_version" (r.reviveVersion.map .string) ++
    member? "constructor_args" (r.constructorArguments.map .string))

end Response

end Provenance
