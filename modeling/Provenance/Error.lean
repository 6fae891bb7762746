import Provenance.Bytecode.Link
import Provenance.Chain.Error
import Provenance.Compiler.Error
import Provenance.Release.Error

/-!
# Failures of the verifier

All failures in one type, with what each means to the one who asked.
-/

namespace Provenance

/-- Why a verification, or the verifier itself, failed. -/
inductive VerifierError where
  | invalidRequest (reason : String)
  | invalidAddress
  | invalidMetadata (reason : String)
  /-- There is no code at the address. -/
  | bytecodeNotFound
  | compiler (error : CompilerError)
  | chain (error : ChainError)
  | bytecode (error : Bytecode.LinkError)
  | setup (error : SetupError)
  | config (reason : String)
  | io (fault : IoFault)
  | json (message : String)
  deriving DecidableEq, Repr

namespace VerifierError

/-- The message of an error. -/
def message : VerifierError → String
  | .invalidRequest reason => s!"invalid request: {reason}"
  | .invalidAddress => "invalid address"
  | .invalidMetadata reason => s!"invalid metadata: {reason}"
  | .bytecodeNotFound => "address not a contract or bytecode not found"
  | .compiler error => s!"Compiler error: {error.message}"
  | .chain error => s!"Chain client error: {error.message}"
  | .bytecode error => s!"Bytecode error: {error.message}"
  | .setup error => s!"Setup error: {error.message}"
  | .config reason => s!"Configuration error: {reason}"
  | .io fault => s!"IO error: {fault.message}"
  | .json message => s!"JSON error: {message}"

/-- What an error means. -/
def kind : VerifierError → ErrorKind
  | .invalidRequest _ | .invalidAddress | .invalidMetadata _ => .inputValidation
  | .bytecodeNotFound => .notFound
  | .compiler error => error.kind
  | .chain error => error.kind
  | .bytecode _ => .compileFailure
  | .setup _ => .compilerUnavailable
  | .config _ | .io _ | .json _ => .internal

end VerifierError

end Provenance
