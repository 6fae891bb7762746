import Provenance.Compiler.Invocation
import Provenance.StandardJson

/-!
# Compiling again

The metadata of a contract is given to the compiler with which it was compiled. The compiler has to
be present and to run to its end in time, without complaint and with all of its input taken. From
its output the contract of interest is chosen.
-/

namespace Provenance

/-- Compilers, and how long one may take. -/
structure Recompiler where
  cache : Cache
  limit : Duration
  deriving DecidableEq, Repr

namespace Recompiler

variable {ν : Type}

/-- The output of a run that ended well. -/
def outputOf (backend : Backend) (program : String) (limit : Duration) :
    Program.Ending → Except CompilerError Bytes
  | .notStarted fault => .error (.spawn program fault)
  | .timedOut => .error (.timeout program limit)
  | .notCollected fault => .error (.wait program fault)
  | .ended status output errors inputFault =>
    if status.isSuccess then
      match inputFault with
      | some fault => .error (.stdin program fault)
      | none => .ok output
    else .error (backend.failure program status errors)

/-- Whether a run ended, but not well. -/
def hasFailed : Program.Ending → Bool
  | .ended status _ _ _ => !status.isSuccess
  | _ => false

/-- Runs a compiler. -/
def runCompiler (r : Recompiler) (backend : Backend) (i : Invocation) (input : Bytes) :
    Session ν CompilerError Bytes := do
  Session.log .debug .compiler "Spawning compiler"
    [("program", .shown i.program), ("input_len", .integer input.length)]
  let ending ← Session.run i.program i.arguments input r.limit
  match outputOf backend i.program r.limit ending with
  | .ok output => return output
  | .error e => do
    if hasFailed ending then
      Session.log .warn .compiler "Compiler exited unsuccessfully" [("error", .shown e.message)]
    Session.fail e

/-- Chooses the contract of interest from the output of a compiler. -/
def choose (o : CompilerOutput) (declared : Option Target) (tag : Option String) :
    Session ν CompilerError Compilation := do
  match declared.filter fun t => !t.isBlank && (o.artifact? t).isNone with
  | some t =>
    Session.log .warn .output
      "Declared compilation target missing from compiler output, scanning contracts"
      [("target", .shown t.text)]
  | none => pure ()
  match o.declared? declared, o.firstDeployed? with
  | none, some t =>
    Session.log .debug .output "Resolved compilation target by scanning output"
      [("target", .shown t.text)]
  | _, _ => pure ()
  Session.ofExcept ((o.compilation declared tag).mapError .ofResolution)

/-- Compiles with the compiler of a version, and with the toolchain around it that the metadata asks
for. -/
def compileWith (r : Recompiler) (m : Metadata) (version : String) :
    Session ν CompilerError Compilation := do
  let compiler ← r.cache.ensure version
  Session.record "backend" (.shown m.backend.text)
  let invocation ← m.backend.invocation r.cache compiler
  let output ← r.runCompiler m.backend invocation (Text.encode m.standardJson.toValue.encode)
  let decoded ← Session.ofExcept
    ((Json.decodeBytes CompilerOutput.decoder output).mapError .malformedOutput)
  choose decoded m.target? m.backend.tag?

/-- Compiles the sources of a metadata document. -/
def recompile (r : Recompiler) (m : Metadata) (version : String) :
    Session ν CompilerError Compilation :=
  Session.within "recompile" .compiler [("version", .text version)] (r.compileWith m version)

end Recompiler

end Provenance
