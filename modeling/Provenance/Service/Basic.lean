import Provenance.Chain.Endpoints
import Provenance.CommandLine.Command
import Provenance.Service.Error
import Provenance.Verification

/-!
# The service

The service verifies contracts for those who ask over the web. It is set up from the options of the
command line: the chains are read from their file, the directory of the compilers is made, and then
it listens.
-/

namespace Provenance

/-- What the service works with. -/
structure Service where
  host : String
  port : Nat
  registry : Registry
  recompiler : Recompiler
  deriving Repr

namespace Service

variable {ν ε : Type}

/-- Reads the chains from their file. -/
def readRegistry (path : String) : Session ν StartError Registry := do
  let text ← (Session.ask fun d => d.readText path).mapError fun fault =>
    .config s!"Failed to read chains file {path}: {fault.message}"
  let registry ← Session.ofExcept
    ((Registry.parse text).mapError fun flaw => .config flaw.message)
  Session.log .info .config "Chain registry loaded"
    [("chains", .integer registry.chains.length), ("file", .shown path)]
  return registry

/-- Makes the directory of the compilers. -/
def openCache (directory downloadBase : String) : Session ν StartError Cache := do
  (Session.change (Disk.createDirectories directory)).mapError (.cache directory)
  Session.log .info .config "Compiler cache ready" [("cache_dir", .shown directory)]
  return ⟨directory, downloadBase⟩

/-- Sets the service up. -/
def load (o : CommandLine.RunOptions) : Session ν StartError Service := do
  let registry ← readRegistry o.chainsFile
  let cache ← openCache o.cacheDirectory o.downloadBase
  return ⟨o.host, o.port, registry, ⟨cache, .ofSeconds o.compileTimeout⟩⟩

/-- The verifier of a service, which asks the chains of its registry. -/
def verifier (s : Service) : Verifier ν := ⟨s.recompiler, s.registry.client⟩

/-- Begins to listen, and tells where. -/
def listen (s : Service) : Session ν StartError String := do
  let address := s!"{s.host}:{s.port}"
  let taken ← (Session.listen address).mapError fun fault =>
    .config s!"Failed to bind {address}: {fault.message}"
  Session.log .info .server "Verification server listening" [("address", .shown taken)]
  return taken

/-- Stops listening. What has begun is finished first. -/
def close : Session ν ε Unit := Session.log .info .server "Initiating server graceful shutdown" []

end Service

end Provenance
