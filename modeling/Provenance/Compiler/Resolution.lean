import Provenance.Compiler.Output

/-!
# The contract of interest

Which of the compiled contracts is compared with the deployed code: the declared one if it was
compiled, otherwise the first that has deployed code, in order of source path and name.
-/

namespace Provenance

/-- Why no compiled contract was chosen. -/
inductive ResolutionError where
  /-- The compiler reported errors. -/
  | diagnostics (messages : List String)
  | notFound
  deriving DecidableEq, Repr

/-- Whether a diagnostic reports an error. -/
def Diagnostic.isError (d : Diagnostic) : Bool :=
  d.severity.toList.map Char.toLower = ['e', 'r', 'r', 'o', 'r']

/-- What a diagnostic says. -/
def Diagnostic.text (d : Diagnostic) : String := d.formattedMessage.getD d.message

/-- Whether a target lacks one of its names. -/
def Target.isBlank (t : Target) : Bool := t.source.isEmpty || t.contract.isEmpty

namespace CompilerOutput

/-- The compiled contract of a target. -/
def artifact? (o : CompilerOutput) (t : Target) : Option Artifact :=
  (Dictionary.get? t.source o.contracts).bind (Dictionary.get? t.contract)

/-- The first contract that has deployed code. -/
def firstDeployed? (o : CompilerOutput) : Option Target :=
  o.contracts.findSome? fun (source, contracts) =>
    (contracts.find? fun entry => !entry.2.deployed.isEmpty).map fun entry => ⟨source, entry.1⟩

/-- What the compiler's errors say. -/
def errorTexts (o : CompilerOutput) : List String :=
  (o.errors.filter Diagnostic.isError).map Diagnostic.text

/-- The declared target if it has names and was compiled. -/
def declared? (o : CompilerOutput) (declared : Option Target) : Option Target :=
  declared.filter fun t => !t.isBlank && (o.artifact? t).isSome

/-- Chooses the contract of interest. -/
def resolve (o : CompilerOutput) (declared : Option Target) : Except ResolutionError Target :=
  match o.declared? declared with
  | some t => .ok t
  | none =>
    match o.firstDeployed? with
    | some t => .ok t
    | none =>
      if o.errorTexts.isEmpty then .error .notFound else .error (.diagnostics o.errorTexts)

end CompilerOutput

/-- A compiled contract of interest. -/
structure Compilation where
  target : Target
  artifact : Artifact
  /-- The toolchain's version: the one that it reports, else the tag that it was chosen by. -/
  reviveVersion : Option String
  deriving Repr, BEq

/-- Takes the contract of interest out of a compiler's output. -/
def CompilerOutput.compilation (o : CompilerOutput) (declared : Option Target)
    (tag : Option String) : Except ResolutionError Compilation :=
  match o.resolve declared with
  | .error e => .error e
  | .ok t =>
    match o.artifact? t with
    | none => .error .notFound
    | some artifact => .ok ⟨t, artifact, o.reviveVersion.or tag⟩

end Provenance
