import Provenance.Json.Decoder

/-!
# Contract metadata

The metadata document that is published next to a deployment: the sources, the settings they were
compiled with, and, when the contract was built for another machine, the toolchain's release.
-/

namespace Provenance

open Json

/-- A source file. -/
structure SourceFile where
  keccak256 : Option String
  content : String
  deriving Repr, BEq

/-- Settings of the optimizer. Members of other names are kept as they are. -/
structure Optimizer where
  enabled : Bool
  runs : Nat
  extra : List (String × Value)
  deriving Repr, BEq

/-- Settings of the compiler. Members of other names are kept as they are. -/
structure Settings where
  remappings : List String
  optimizer : Optimizer
  evmVersion : Option String
  /-- Addresses of libraries, by path and name or nested by path. -/
  libraries : List (String × Value)
  metadata : Option Value
  /-- Names of the contracts of interest, by path. -/
  compilationTarget : List (String × String)
  outputSelection : Option Value
  extra : List (String × Value)
  deriving Repr, BEq

/-- A metadata document. -/
structure Metadata where
  language : String
  sources : List (String × SourceFile)
  settings : Settings
  /-- The toolchain release of a contract that was built with it; empty for the default one. -/
  reviveVersion : Option String
  deriving Repr, BEq

/-- A contract and the source file that holds it. -/
structure Target where
  source : String
  contract : String
  deriving DecidableEq, Repr

/-- A target as it is shown. -/
def Target.text (t : Target) : String := s!"{t.source}:{t.contract}"

/-- How a metadata document gets compiled: by the plain compiler, or by the toolchain around it, in
the release of a tag or the default one. -/
inductive Backend where
  | solc
  | revive (tag : Option String)
  deriving DecidableEq, Repr

/-! ## Reading -/

/-- The fields of a source file. -/
def SourceFile.record : Record SourceFile where
  name := "SourceFile"
  blank := ⟨none, ""⟩
  fields := [
    .optional "keccak256" (.option .string) fun v s => { s with keccak256 := v },
    .optional "content" .string fun v s => { s with content := v }]
  keep := none

/-- The settings of a document that says nothing about the optimizer. -/
def Optimizer.absent : Optimizer := ⟨false, 0, []⟩

/-- The number of runs where the optimizer is given without one. -/
def Optimizer.defaultRuns : Nat := 200

/-- The fields of the optimizer's settings. -/
def Optimizer.record : Record Optimizer where
  name := "OptimizerSettings"
  blank := ⟨false, defaultRuns, []⟩
  fields := [
    .optional "enabled" .bool fun v o => { o with enabled := v },
    .optional "runs" .uint64 fun v o => { o with runs := v }]
  keep := some fun key v o => { o with extra := Dictionary.insert key v o.extra }

/-- The settings of a document that says nothing about them. -/
def Settings.absent : Settings := ⟨[], .absent, none, [], none, [], none, []⟩

/-- The fields of the compiler's settings. -/
def Settings.record : Record Settings where
  name := "CompilerSettings"
  blank := absent
  fields := [
    .optional "remappings" (.list .string) fun v s => { s with remappings := v },
    .optional "optimizer" Optimizer.record.decoder fun v s => { s with optimizer := v },
    .optional "evmVersion" (.option .string) fun v s => { s with evmVersion := v },
    .optional "libraries" (.dictionary .text .value) fun v s => { s with libraries := v },
    .optional "metadata" (.option .value) fun v s => { s with metadata := v },
    .optional "compilationTarget" (.dictionary .text .string) fun v s =>
      { s with compilationTarget := v },
    .optional "outputSelection" (.option .value) fun v s => { s with outputSelection := v }]
  keep := some fun key v s => { s with extra := Dictionary.insert key v s.extra }

/-- The fields of a metadata document. -/
def Metadata.record : Record Metadata where
  name := "ContractMetadata"
  blank := ⟨"Solidity", [], .absent, none⟩
  fields := [
    .optional "language" .string fun v m => { m with language := v },
    .optional "sources" (.dictionary .text SourceFile.record.decoder) fun v m =>
      { m with sources := v },
    .optional "settings" Settings.record.decoder fun v m => { m with settings := v },
    { Field.optional "revive_version" (.option .string) fun v m =>
        { m with reviveVersion := v } with
      aliases := ["reviveVersion", "resolcVersion", "resolc_version"] }]
  keep := none

namespace Metadata

/-- What is wrong with a metadata document. -/
inductive Flaw where
  | undecodable (message : String)
  | noSources
  | noContent (path : String)
  deriving DecidableEq, Repr

/-- The message of a flaw. -/
def Flaw.message : Flaw → String
  | .undecodable message => message
  | .noSources => "metadata has no sources"
  | .noContent path => s!"source {path} has no content"

/-- Checks that there are sources and that each has its content. -/
def check (m : Metadata) : Except Flaw Metadata :=
  if m.sources.isEmpty then .error .noSources
  else
    match m.sources.find? fun entry => entry.2.content.isEmpty with
    | some (path, _) => .error (.noContent path)
    | none => .ok m

/-- Reads a metadata document and checks it. -/
def parse (text : String) : Except Flaw Metadata :=
  match decodeText record.decoder text with
  | .error message => .error (.undecodable message)
  | .ok m => m.check

/-- The declared contract of interest, the first in order of path. -/
def target? (m : Metadata) : Option Target :=
  m.settings.compilationTarget.head?.map fun (source, contract) => ⟨source, contract⟩

/-- How the document gets compiled. -/
def backend (m : Metadata) : Backend :=
  match m.reviveVersion with
  | none => .solc
  | some tag => .revive (if tag.isEmpty then none else some tag)

end Metadata

end Provenance
