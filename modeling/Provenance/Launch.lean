import Provenance.Environment.Assignment
import Provenance.Log.Settings
import Provenance.Release.Install
import Provenance.Service.Route

/-!
# Launches

A launch of the program, from its environment and its arguments to the status with which it ends.
The service runs until it is interrupted.
-/

namespace Provenance

/-- How a launch ended. -/
structure Launch where
  /-- The status of the program. -/
  status : Nat
  /-- What is printed after the log. -/
  notice : Option String
  /-- The answers of the service. -/
  answers : List Http.Outgoing
  settings : Log.Settings
  deriving Repr

namespace Launch

variable {ν ε : Type}

/-- The file that may set variables. -/
def variablesFile : String := ".env"

/-- The name and the version of the program. -/
def version : String := "verifier 0.3.0"

/-- The status of a program that has failed. -/
def failedStatus : Nat := 101

/-- The content of a file of some name in the nearest directory that has one. -/
def nearest? (d : Disk) (name : String) : Option Bytes :=
  (List.range (d.current.length + 1)).reverse.findSome? fun n =>
    match d.get? (d.current.take n ++ [name]) with
    | some (.file _ content) => some content
    | _ => none

/-- Sets the variables of the file that may do so. -/
def completed (e : Environment) : Session ν ε Environment := do
  match ← (Session.ask fun d => .ok (nearest? d variablesFile)).attempt with
  | .ok (some file) => return e.readFile file
  | _ => return e

/-- Serves requests, after the last of which the service is interrupted. -/
def serve (o : CommandLine.RunOptions) (requests : List Http.Incoming) :
    Session ν StartError (List Http.Outgoing) := do
  let service ← Service.load o
  let address ← service.listen
  Session.log .info .main "Verifier service started" [("address", .shown address)]
  let answers ← requests.mapM service.answer
  Service.close
  Session.log .info .main "Verifier service shutting down" []
  return answers

/-- Installs a toolchain release. -/
def install (o : CommandLine.SetupOptions) : Session ν StartError Unit := do
  let i ← (Release.install o).mapError .setup
  Session.log .info .setup "Setup completed"
    [("tag", .shown i.tag), ("path", .shown i.path), ("default_path", .shown i.defaultPath)]

/-- Does a command, and logs it as failed with a message if it fails. -/
def guarded {α : Type} (message : String) (work : Session ν StartError α) :
    Session ν ε (Option α) := do
  match ← work.attempt with
  | .ok a => return some a
  | .error e => do
    Session.log .error .main message
      [("error", .shown e.message), ("error_chain", .shown e.detail.display)]
    return none

/-- The status of a program that has done its work or failed. -/
def statusOf {α : Type} (done : Option α) : Nat := if done.isSome then 0 else failedStatus

/-- Does what the arguments ask for. -/
def obey (e : Environment) (arguments : List String) (requests : List Http.Incoming) :
    Session ν ε Launch := do
  let settings := Log.Settings.ofEnvironment e
  match CommandLine.Command.parse e.value? arguments with
  | .error u => return ⟨u.exitCode, if u = .version then some version else none, [], settings⟩
  | .ok (.run o) => do
    let answers ← guarded "Verifier stopped with an error" (serve o requests)
    return ⟨statusOf answers, none, answers.getD [], settings⟩
  | .ok (.setup o) => do
    let done ← guarded "Setup failed" (install o)
    return ⟨statusOf done, none, [], settings⟩

/-- Runs the program. -/
def run (e : Environment) (arguments : List String) (requests : List Http.Incoming) :
    Session ν ε Launch := do
  let e ← completed e
  Session.log .info .main "Starting verifier" []
  obey e arguments requests

end Launch

end Provenance
