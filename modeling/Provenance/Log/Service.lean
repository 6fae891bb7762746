/-!
# Parts of the program

The parts that report events, and the short names under which log lines show them.
-/

namespace Provenance.Log

/-- The parts of the program that report events. -/
inductive Part where
  | main
  | config
  | cache
  | compiler
  | output
  | bytecode
  | chain
  | verification
  | server
  | route
  | setup
  deriving DecidableEq, Repr

/-- The target under which a part reports. -/
def Part.target : Part → String
  | .main => "verifier"
  | .config => "verifier::core::config"
  | .cache => "verifier::core::compiler::cache"
  | .compiler => "verifier::core::compiler::backend"
  | .output => "verifier::core::compiler::output"
  | .bytecode => "verifier::core::bytecode"
  | .chain => "verifier::core::client::chain::http"
  | .verification => "verifier::service::verification"
  | .server => "verifier::server"
  | .route => "verifier::server::route::verify"
  | .setup => "verifier::setup"

/-- The short names of targets, by how they begin; the first that fits counts. -/
def services : List (String × String) := [
  ("verifier::core::compiler", "COMPILER"),
  ("verifier::core::bytecode", "BYTECODE"),
  ("verifier::core::client", "CHAIN"),
  ("verifier::server", "HTTP"),
  ("verifier::setup", "SETUP"),
  ("verifier", "-")]

/-- The short name of a target. -/
def serviceOf (target : String) : String :=
  match services.find? fun entry => entry.1.toList.isPrefixOf target.toList with
  | some (_, name) => name
  | none => "EXTERNAL"

end Provenance.Log
