import Provenance.Duration
import Provenance.Fault
import Provenance.Text.Utf8

/-!
# Programs

Programs that are run on an input, and how such runs end.
-/

namespace Provenance.Program

/-- How a program stopped. -/
inductive ExitStatus where
  | code (n : Nat)
  /-- It was stopped by a signal. -/
  | signal (n : Nat)
  deriving DecidableEq, Repr

/-- The names of signals. -/
def signals : List (Nat × String) := [
  (1, "SIGHUP"), (2, "SIGINT"), (3, "SIGQUIT"), (4, "SIGILL"), (5, "SIGTRAP"), (6, "SIGABRT"),
  (7, "SIGBUS"), (8, "SIGFPE"), (9, "SIGKILL"), (10, "SIGUSR1"), (11, "SIGSEGV"), (12, "SIGUSR2"),
  (13, "SIGPIPE"), (14, "SIGALRM"), (15, "SIGTERM"), (16, "SIGSTKFLT"), (17, "SIGCHLD"),
  (18, "SIGCONT"), (19, "SIGSTOP"), (20, "SIGTSTP"), (21, "SIGTTIN"), (22, "SIGTTOU"),
  (23, "SIGURG"), (24, "SIGXCPU"), (25, "SIGXFSZ"), (26, "SIGVTALRM"), (27, "SIGPROF"),
  (28, "SIGWINCH"), (29, "SIGIO"), (30, "SIGPWR"), (31, "SIGSYS")]

namespace ExitStatus

/-- Whether the program stopped without complaint. -/
def isSuccess (s : ExitStatus) : Bool := s = .code 0

/-- A status as it is shown. -/
def text : ExitStatus → String
  | .code n => s!"exit status: {n}"
  | .signal n =>
    match signals.find? fun entry => entry.1 = n with
    | some (_, name) => s!"signal: {n} ({name})"
    | none => s!"signal: {n}"

end ExitStatus

/-- A program to be run. -/
structure Job where
  /-- The path of the program. -/
  program : String
  /-- The program itself. -/
  content : Bytes
  arguments : List String
  input : Bytes
  /-- How long it may take. -/
  limit : Duration
  deriving Repr

/-- How a run ended. -/
inductive Ending where
  | notStarted (fault : IoFault)
  /-- It took too long and was stopped. -/
  | timedOut
  /-- What it wrote could not be collected. -/
  | notCollected (fault : IoFault)
  /-- It stopped. `inputFault` tells why not all of its input was taken, if so. -/
  | ended (status : ExitStatus) (output errors : Bytes) (inputFault : Option IoFault)
  deriving Repr

end Provenance.Program
