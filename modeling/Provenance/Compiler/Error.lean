import Provenance.Compiler.Resolution
import Provenance.Duration
import Provenance.ErrorKind
import Provenance.Fault

/-!
# Failures of compilation

What can go wrong from the version of a compiler to the contract of interest in its output.
-/

namespace Provenance

/-- Why a compilation failed. -/
inductive CompilerError where
  /-- The version cannot name a file of the compiler directory. -/
  | invalidVersion (version : String)
  | download (version : String) (message : String)
  | downloadStatus (version : String) (status : Nat)
  | cache (path : String) (fault : IoFault)
  | toolchainNotInstalled (path : String)
  | spawn (program : String) (fault : IoFault)
  | stdin (program : String) (fault : IoFault)
  | wait (program : String) (fault : IoFault)
  | timeout (program : String) (limit : Duration)
  | exitStatus (program : String) (status : String)
  /-- The toolchain around the compiler failed and said why. -/
  | toolchain (message : String)
  | malformedOutput (message : String)
  | diagnostics (messages : List String)
  | targetNotFound
  deriving DecidableEq, Repr

namespace CompilerError

/-- A contract of interest that was not found. -/
def ofResolution : ResolutionError → CompilerError
  | .diagnostics messages => .diagnostics messages
  | .notFound => .targetNotFound

/-- The message of an error. -/
def message : CompilerError → String
  | .invalidVersion version => s!"invalid compiler version: {version}"
  | .download version message => s!"failed to download solc {version}: {message}"
  | .downloadStatus version status =>
    s!"failed to download solc {version}: distribution responded with status {status}"
  | .cache path fault => s!"compiler cache error at {path}: {fault.message}"
  | .toolchainNotInstalled path =>
    s!"resolc binary {path} is not installed, run `verifier setup` first"
  | .spawn program fault => s!"failed to start {program}: {fault.message}"
  | .stdin program fault => s!"failed to write compiler input to {program}: {fault.message}"
  | .wait program fault => s!"failed to collect output of {program}: {fault.message}"
  | .timeout program limit => s!"{program} did not finish within {limit.text}"
  | .exitStatus program status => s!"{program} exited with {status}"
  | .toolchain message => message
  | .malformedOutput message => s!"failed to decode compiler output: {message}"
  | .diagnostics messages => "compilation failed: " ++ "; ".intercalate messages
  | .targetNotFound => "no compiled contract with deployed bytecode found in compiler output"

/-- What an error means: a bad version is the asker's, what happens before the compiler starts makes
it unavailable, and all else is a failed compilation. -/
def kind : CompilerError → ErrorKind
  | .invalidVersion _ => .inputValidation
  | .download .. | .downloadStatus .. | .cache .. | .toolchainNotInstalled _ =>
    .compilerUnavailable
  | _ => .compileFailure

end CompilerError

end Provenance
