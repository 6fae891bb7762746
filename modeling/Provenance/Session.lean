import Provenance.Cache.Memory
import Provenance.Disk.Mishap
import Provenance.Http.Message
import Provenance.Log.Event
import Provenance.Log.Service
import Provenance.Program

/-!
# Sessions

A session is what the program does in the world: it reads and changes files, remembers, logs, and
asks what is outside, which are servers that answer requests and programs that are run. It ends with
a value or fails with an error. Everything outside is given by functions on a state of its own, so
that a session can be followed step by step.
-/

namespace Provenance

/-- What is outside of the program, with a state of type `ν`. -/
structure Outside (ν : Type) where
  /-- Sends a request; there is no reply when the connection breaks. -/
  exchange : Http.Request → ν → Option Http.Reply × ν
  run : Program.Job → ν → Program.Ending × ν
  /-- Draws a number below a bound. -/
  draw : Nat → ν → Nat × ν
  /-- Begins to listen for requests at an address, and tells the address that was taken. -/
  listen : String → ν → Except IoFault String × ν

/-- What a session has done to the outside. -/
inductive Effect where
  /-- A compiler was downloaded, or it was attempted. -/
  | download (version : String)
  | deployedCode (chain : Nat) (address : String)
  | creationCode (chain : Nat) (address : String)
  | run (job : Program.Job)
  deriving Repr

/-- The world of a session. -/
structure World (ν : Type) where
  outside : ν
  disk : Disk
  /-- What is going to happen to the next operations on files; nothing, where the list is over. -/
  mishaps : List (Option Mishap)
  memory : Cache.Memory
  /-- What was done to the outside, the first first. -/
  effects : List Effect
  /-- The spans that are open, the innermost first. -/
  spans : List Log.Span
  /-- What was logged, the first first. -/
  log : List Log.Record

/-- The world before anything has happened in it. -/
def World.start {ν : Type} (outside : ν) (disk : Disk) : World ν :=
  ⟨outside, disk, [], .empty, [], [], []⟩

/-- Something to be done in the world, with a value or an error as its result. -/
def Session (ν ε α : Type) : Type := Outside ν → World ν → Except ε α × World ν

namespace Session

variable {ν ε δ α β : Type}

instance : Monad (Session ν ε) where
  pure a := fun _ w => (.ok a, w)
  bind s f := fun o w =>
    match s o w with
    | (.ok a, w) => f a o w
    | (.error e, w) => (.error e, w)

/-- Fails. -/
def fail (error : ε) : Session ν ε α := fun _ w => (.error error, w)

/-- Ends with a result. -/
def ofExcept (result : Except ε α) : Session ν ε α := fun _ w => (result, w)

/-- Does the same, and fails with errors of another type. -/
def mapError (f : ε → δ) (s : Session ν ε α) : Session ν δ α := fun o w =>
  match s o w with
  | (.ok a, w) => (.ok a, w)
  | (.error e, w) => (.error (f e), w)

/-- Does the same, and gives the result as a value. -/
def attempt (s : Session ν ε α) : Session ν δ (Except ε α) := fun o w =>
  match s o w with
  | (r, w) => (.ok r, w)

/-- Runs a session in a world. -/
def runIn (s : Session ν ε α) (o : Outside ν) (w : World ν) : Except ε α × World ν := s o w

theorem bind_apply (s : Session ν ε α) (f : α → Session ν ε β) (o : Outside ν) (w : World ν) :
    (s >>= f) o w = match s o w with
      | (.ok a, w) => f a o w
      | (.error e, w) => (.error e, w) := rfl

/-- What the world is. -/
def world : Session ν ε (World ν) := fun _ w => (.ok w, w)

/-- Changes the world. -/
def modify (change : World ν → World ν) : Session ν ε Unit := fun _ w => (.ok (), change w)

/-! ## Effects -/

/-- Notes an effect. -/
def note (effect : Effect) : Session ν ε Unit :=
  modify fun w => { w with effects := w.effects ++ [effect] }

/-- Has others do something, of which only that it was asked of them is noted. -/
def delegate (effect : Effect) (s : Session ν ε α) : Session ν ε α := fun o w =>
  match s o { w with effects := w.effects ++ [effect] } with
  | (r, w') => (r, { w' with effects := w.effects ++ [effect] })

/-- Sends a request. -/
def exchange (request : Http.Request) : Session ν ε (Option Http.Reply) := fun o w =>
  match o.exchange request w.outside with
  | (reply, outside) => (.ok reply, { w with outside })

/-- Draws a number below a bound. -/
def draw (bound : Nat) : Session ν ε Nat := fun o w =>
  match o.draw bound w.outside with
  | (n, outside) => (.ok n, { w with outside })

/-- Begins to listen for requests at an address. -/
def listen (address : String) : Session ν IoFault String := fun o w =>
  match o.listen address w.outside with
  | (result, outside) => (result, { w with outside })

/-- Runs a program from a file, if the file can be started. -/
def run (program : String) (arguments : List String) (input : Bytes) (limit : Duration) :
    Session ν ε Program.Ending := fun o w =>
  match w.disk.find program with
  | .error fault => (.ok (.notStarted fault), w)
  | .ok (_, .directory) => (.ok (.notStarted .permissionDenied), w)
  | .ok (_, .file mode content) =>
    if mode &&& 0o111 = 0 then (.ok (.notStarted .permissionDenied), w)
    else
      let job : Program.Job := ⟨program, content, arguments, input, limit⟩
      match o.run job w.outside with
      | (ending, outside) => (.ok ending, { w with outside, effects := w.effects ++ [.run job] })

/-! ## Files -/

/-- What is going to happen to the next operation on files. -/
def nextMishap : Session ν ε (Option Mishap) := fun _ w =>
  match w.mishaps with
  | [] => (.ok none, w)
  | m :: rest => (.ok m, { w with mishaps := rest })

/-- Asks the disk something. -/
def ask (question : Disk → Except IoFault α) : Session ν IoFault α := do
  let mishap ← nextMishap
  let w ← world
  ofExcept (w.disk.asking mishap question)

/-- Does something to the disk. -/
def act (operation : Option Mishap → Disk → Except IoFault Unit × Disk) :
    Session ν IoFault Unit := do
  let mishap ← nextMishap
  let w ← world
  match operation mishap w.disk with
  | (result, disk) => do
    modify fun w => { w with disk }
    ofExcept result

/-- Changes the disk. -/
def change (operation : Disk → Except IoFault Disk) : Session ν IoFault Unit :=
  act fun mishap disk => disk.changing mishap operation

/-- Writes a file. -/
def write (path : String) (content : Bytes) : Session ν IoFault Unit :=
  act fun mishap disk => disk.writing mishap path content

/-! ## Logging -/

/-- Logs an event. -/
def log (level : Log.Level) (part : Log.Part) (message : String) (fields : Log.Fields) :
    Session ν ε Unit :=
  modify fun w =>
    { w with log := w.log ++ [⟨⟨level, part.target, .shown message, fields⟩, w.spans⟩] }

/-- Opens a span, works inside it and closes it. -/
def within (name : String) (part : Log.Part) (fields : Log.Fields) (s : Session ν ε α) :
    Session ν ε α := fun o w =>
  match s o { w with spans := Log.Span.start name .info part.target fields :: w.spans } with
  | (r, w) => (r, { w with spans := w.spans.tail })

/-- Records a field of the innermost span. -/
def record (name : String) (value : Log.Value) : Session ν ε Unit :=
  modify fun w =>
    { w with spans := match w.spans with
      | [] => []
      | s :: rest => s.record name value :: rest }

end Session

end Provenance
