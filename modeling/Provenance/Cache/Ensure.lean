import Provenance.Cache.Step
import Provenance.Http.Client

/-!
# Making sure of a compiler

A call of the cache runs its steps in the world, downloads included, and reports what it does. Calls
about one version may also run side by side.
-/

namespace Provenance.Cache

variable {ν ε : Type}

/-- Reports a step from one stage to another. -/
def report (c : Cache) (version : String) : Stage → Stage → Session ν ε Unit
  | .probing _, .recording .. =>
    Session.log .debug .cache "Found solc binary on disk"
      [("version", .shown version), ("path", .shown (c.path version))]
  | .probing _, .requesting _ address => do
    Session.log .info .cache "Start downloading solc binary" [("version", .shown version)]
    Session.log .debug .cache "Downloading solc" [("url", .shown address)]
  | .recording _ true, .releasing .. =>
    Session.log .info .cache "Solc binary installed"
      [("version", .shown version), ("path", .shown (c.path version))]
  | _, _ => pure ()

/-- Downloads the compiler of a version from an address. -/
def download (version address : String) : Session ν ε (Except Http.TransferError Http.Reply) := do
  Session.note (.download version)
  (Http.get address [("accept", "*/*")]).attempt

/-- Goes a step in the world. -/
def stepAloud (c : Cache) (version : String) (stage : Stage) : Session ν ε Stage := do
  let mishap ← if stage.isOnDisk then Session.nextMishap else pure none
  let w ← Session.world
  match step c version mishap stage ⟨w.memory, w.disk⟩ with
  | (next, shared) => do
    Session.modify fun w => { w with memory := shared.memory, disk := shared.disk }
    report c version stage next
    return next

/-- Goes on from a stage by a step or a download. -/
def advance (c : Cache) (version : String) : Stage → Session ν ε Stage
  | .requesting lock address => do
    let reply ← download version address
    return receive version reply (.requesting lock address)
  | stage => stepAloud c version stage

/-- A call that does not wait for a reply goes on by a step. -/
theorem advance_of_address?_eq_none {c : Cache} {version : String} {stage : Stage}
    (h : stage.address? = none) :
    (c.advance version stage : Session ν ε Stage) = c.stepAloud version stage := by
  cases stage with
  | requesting lock address => cases h
  | _ => rfl

/-- Goes on from a stage for so many steps, or to the end. -/
def drive (c : Cache) (version : String) : (steps : Nat) → Stage → Session ν ε Stage
  | 0, stage => return stage
  | steps + 1, stage => do drive c version steps (← advance c version stage)

/-- The path of the compiler of a version, which is downloaded if it is missing. No other call is
under way, and so this one need not wait. -/
def ensure (c : Cache) (version : String) : Session ν CompilerError String := do
  match (← drive c version maxSteps .starting).result? with
  | some result => Session.ofExcept result
  | none => Session.fail (.cache (c.path version) .busy)

/-- Lets each of several calls go on once, and all of them so many times. -/
def driveAll (c : Cache) (version : String) : (rounds : Nat) → List Stage →
    Session ν ε (List Stage)
  | 0, stages => return stages
  | rounds + 1, stages => do driveAll c version rounds (← stages.mapM (advance c version))

/-- The results of so many calls side by side. -/
def ensureMany (c : Cache) (version : String) (count : Nat) : Session ν ε (List Result) := do
  let stages ← driveAll c version (maxSteps * (count + 1)) (List.replicate count .starting)
  return stages.map fun stage => stage.result?.getD (.error (.cache (c.path version) .busy))

end Provenance.Cache
