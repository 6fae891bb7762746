import Provenance.Metadata

/-!
# Compiler output

The document that a compiler writes: compiled contracts by source path and name, and diagnostics.
-/

namespace Provenance

open Json

/-- What was compiled from one contract. -/
structure Artifact where
  abi : List Value
  /-- Code that creates the contract, in hexadecimal. -/
  creation : String
  /-- Code that the contract runs, in hexadecimal. -/
  deployed : String
  deriving Repr, BEq, Inhabited

/-- A remark of the compiler. -/
structure Diagnostic where
  severity : String
  message : String
  formattedMessage : Option String
  kind : Option String
  deriving Repr, BEq

/-- Compiled contracts by source path, then by name. -/
abbrev Contracts := List (String × List (String × Artifact))

/-- The output of a compiler. -/
structure CompilerOutput where
  contracts : Contracts
  errors : List Diagnostic
  /-- The toolchain's version, where the toolchain reports it. -/
  reviveVersion : Option String
  deriving Repr, BEq

/-! ## Reading -/

/-- The only field of a piece of code. -/
def codeRecord : Record String where
  name := "BytecodeObject"
  blank := ""
  fields := [.optional "object" .string fun v _ => v]
  keep := none

/-- The fields that hold the two pieces of code, creation and deployed code. -/
def codesRecord : Record (String × String) where
  name := "EvmArtifact"
  blank := ("", "")
  fields := [
    .optional "bytecode" codeRecord.decoder fun v codes => (v, codes.2),
    .optional "deployedBytecode" codeRecord.decoder fun v codes => (codes.1, v)]
  keep := none

/-- The fields of a compiled contract. -/
def Artifact.record : Record Artifact where
  name := "ContractArtifact"
  blank := ⟨[], "", ""⟩
  fields := [
    .optional "abi" (.list .value) fun v a => { a with abi := v },
    .optional "evm" codesRecord.decoder fun v a => { a with creation := v.1, deployed := v.2 }]
  keep := none

/-- The fields of a diagnostic. -/
def Diagnostic.record : Record Diagnostic where
  name := "Diagnostic"
  blank := ⟨"", "", none, none⟩
  fields := [
    .optional "severity" .string fun v d => { d with severity := v },
    .optional "message" .string fun v d => { d with message := v },
    .optional "formattedMessage" (.option .string) fun v d => { d with formattedMessage := v },
    .optional "type" (.option .string) fun v d => { d with kind := v }]
  keep := none

namespace CompilerOutput

/-- The fields of a compiler's output. -/
def record : Record CompilerOutput where
  name := "CompilerOutput"
  blank := ⟨[], [], none⟩
  fields := [
    .optional "contracts" (.dictionary .text (.dictionary .text Artifact.record.decoder))
      fun v o => { o with contracts := v },
    .optional "errors" (.list Diagnostic.record.decoder) fun v o => { o with errors := v },
    .optional "revive_version" (.option .string) fun v o => { o with reviveVersion := v }]
  keep := none

/-- Reads a compiler's output. -/
def decoder : Decoder CompilerOutput := record.decoder

end CompilerOutput

/-! ## Writing -/

/-- A text or `null`. -/
private def textOrNull : Option String → Value
  | some s => .string s
  | none => .null

/-- A compiled contract as a document. -/
def Artifact.toValue (a : Artifact) : Value :=
  .object [
    ("abi", .array a.abi),
    ("evm", .object [
      ("bytecode", .object [("object", .string a.creation)]),
      ("deployedBytecode", .object [("object", .string a.deployed)])])]

/-- A diagnostic as a document. -/
def Diagnostic.toValue (d : Diagnostic) : Value :=
  .object [
    ("severity", .string d.severity),
    ("message", .string d.message),
    ("formattedMessage", textOrNull d.formattedMessage),
    ("type", textOrNull d.kind)]

/-- A compiler's output as a document. -/
def CompilerOutput.toValue (o : CompilerOutput) : Value :=
  .object ([
    ("contracts", .object (o.contracts.map fun (source, contracts) =>
      (source, .object (contracts.map fun (name, a) => (name, a.toValue))))),
    ("errors", .array (o.errors.map Diagnostic.toValue))] ++
    match o.reviveVersion with
    | some v => [("revive_version", .string v)]
    | none => [])

end Provenance
