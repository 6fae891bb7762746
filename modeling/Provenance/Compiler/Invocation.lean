import Provenance.Cache.Ensure
import Provenance.Compiler.Error
import Provenance.Metadata
import Provenance.Release.Asset

/-!
# Invocations of compilers

Which program of the compiler cache is run for a metadata document, with which arguments, and what
its failure means. The compiler itself is run alone, the toolchain around it is told where the
compiler is.
-/

namespace Provenance

/-- A program and its arguments. -/
structure Invocation where
  program : String
  arguments : List String
  deriving DecidableEq, Repr

namespace Backend

/-- A way to compile as it is logged. -/
def text : Backend → String
  | .solc => "Solc"
  | .revive none => "Revive \x7b tag: None \x7d"
  | .revive (some tag) => "Revive \x7b tag: Some(" ++ Text.quotedString tag ++ ") \x7d"

/-- The tag by which a toolchain is chosen. -/
def tag? : Backend → Option String
  | .solc => none
  | .revive tag => tag

variable {ν : Type}

/-- What is run, given where the compiler is. A toolchain has to be installed. -/
def invocation (cache : Cache) (compiler : String) :
    Backend → Session ν CompilerError Invocation
  | .solc => return ⟨compiler, ["--standard-json"]⟩
  | .revive tag => do
    let name := tag.getD Release.defaultBinary
    if !Version.isSafe name.toList then Session.fail (.invalidVersion name)
    else do
      let program := cache.path name
      let isInstalled ← (Session.ask fun d => d.exists? program).mapError (.cache program)
      if isInstalled then return ⟨program, ["--solc", compiler, "--standard-json"]⟩
      else Session.fail (.toolchainNotInstalled program)

/-- What the failure of a program means. A toolchain may say it itself. -/
def failure (program : String) (status : Program.ExitStatus) (errors : Bytes) :
    Backend → CompilerError
  | .solc => .exitStatus program status.text
  | .revive _ =>
    let said := String.ofList (Text.trim (Text.lossyText errors).toList)
    if said.isEmpty then .toolchain (program ++ " exited with " ++ status.text)
    else .toolchain said

end Backend

end Provenance
