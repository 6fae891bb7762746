import Provenance.Cache.Basic
import Provenance.Cache.Memory
import Provenance.Compiler.Error
import Provenance.Disk.Mishap
import Provenance.Http.Message

/-!
# Steps of a call

A call of the cache makes sure that the compiler of a version is there. It goes in steps, between
which other calls may go theirs: it looks into the memory, takes the version's lock, waits until it
holds it, looks again into the memory and then onto the disk, downloads the compiler if need be,
writes it under a temporary name, renames it, remembers it, lets go of the lock, drops its reference
to it, and removes it if no other call refers to it.
-/

namespace Provenance.Cache

/-- What calls share. -/
structure Shared where
  memory : Memory
  disk : Disk
  deriving Repr

/-- How a call ends: with the path of the compiler. -/
abbrev Result := Except CompilerError String

/-- What a call is about to do. -/
inductive Stage where
  | starting
  /-- It looks up the lock. -/
  | looking
  | waiting (lock : Nat)
  /-- It looks into the memory again. -/
  | checking (lock : Nat)
  /-- It looks for the compiler on the disk. -/
  | probing (lock : Nat)
  /-- It has asked for the compiler at an address and waits for the reply. -/
  | requesting (lock : Nat) (address : String)
  | writing (lock : Nat) (content : Bytes)
  /-- It marks the file as a program. -/
  | marking (lock : Nat)
  | renaming (lock : Nat)
  /-- It remembers the compiler, which was downloaded or found. -/
  | recording (lock : Nat) (isNew : Bool)
  | releasing (lock : Nat) (result : Result)
  /-- It drops its reference to the lock. -/
  | dropping (lock : Nat) (result : Result)
  /-- It removes the lock if nothing refers to it. -/
  | leaving (result : Result)
  | done (result : Result)
  /-- It was given up before its end. -/
  | abandoned
  deriving Repr

namespace Stage

/-- The result of a call that has ended. -/
def result? : Stage → Option Result
  | .done result => some result
  | _ => none

/-- The lock to which a call has a reference. -/
def reference? : Stage → Option Nat
  | .waiting lock | .checking lock | .probing lock | .requesting lock _ | .writing lock _
  | .marking lock | .renaming lock | .recording lock _ | .releasing lock _
  | .dropping lock _ => some lock
  | .starting | .looking | .leaving _ | .done _ | .abandoned => none

/-- The lock that a call holds. -/
def held? : Stage → Option Nat
  | .checking lock | .probing lock | .requesting lock _ | .writing lock _ | .marking lock
  | .renaming lock | .recording lock _ | .releasing lock _ => some lock
  | .starting | .looking | .waiting _ | .dropping .. | .leaving _ | .done _ | .abandoned => none

/-- The address at which a call has asked, while it waits for the reply. -/
def address? : Stage → Option String
  | .requesting _ address => some address
  | _ => none

/-- Whether a call is about to use the disk. -/
def isOnDisk : Stage → Bool
  | .probing _ | .writing .. | .marking _ | .renaming _ => true
  | _ => false

/-- Whether a call may be given up here, since it waits for something that takes time. -/
def isWaiting : Stage → Bool
  | .waiting _ | .requesting .. => true
  | stage => stage.isOnDisk

end Stage

/-- The number of steps after which a call that never waits has ended. -/
def maxSteps : Nat := 13

/-- A step of a call about a version. A call whose lock is held by another, one that waits for a
reply, and one that has ended stay where they are. -/
def step (c : Cache) (version : String) (mishap : Option Mishap) :
    Stage → Shared → Stage × Shared
  | .starting, s =>
    if !Version.isSafe version.toList then (.done (.error (.invalidVersion version)), s)
    else
      match s.memory.path? version with
      | some path => (.done (.ok path), s)
      | none => (.looking, s)
  | .looking, s =>
    match s.memory.takeLock version with
    | (lock, memory) => (.waiting lock, { s with memory })
  | .waiting lock, s =>
    if s.memory.isHeld lock then (.waiting lock, s)
    else (.checking lock, { s with memory := s.memory.hold lock })
  | .checking lock, s =>
    match s.memory.path? version with
    | some path => (.releasing lock (.ok path), s)
    | none => (.probing lock, s)
  | .probing lock, s =>
    match s.disk.asking mishap fun d => d.exists? (c.path version) with
    | .error fault => (.releasing lock (.error (.cache (c.path version) fault)), s)
    | .ok true => (.recording lock false, s)
    | .ok false => (.requesting lock (c.url version), s)
  | .requesting lock address, s => (.requesting lock address, s)
  | .writing lock content, s =>
    match s.disk.writing mishap (c.partialPath version) content with
    | (.ok _, disk) => (.marking lock, { s with disk })
    | (.error fault, disk) =>
      (.releasing lock (.error (.cache (c.partialPath version) fault)), { s with disk })
  | .marking lock, s =>
    match s.disk.changing mishap (Disk.setMode (c.partialPath version) Disk.programMode) with
    | (.ok _, disk) => (.renaming lock, { s with disk })
    | (.error fault, disk) =>
      (.releasing lock (.error (.cache (c.partialPath version) fault)), { s with disk })
  | .renaming lock, s =>
    match s.disk.changing mishap (Disk.rename (c.partialPath version) (c.path version)) with
    | (.ok _, disk) => (.recording lock true, { s with disk })
    | (.error fault, disk) =>
      (.releasing lock (.error (.cache (c.path version) fault)), { s with disk })
  | .recording lock _, s =>
    (.releasing lock (.ok (c.path version)),
      { s with memory := s.memory.install version (c.path version) })
  | .releasing lock result, s =>
    (.dropping lock result, { s with memory := s.memory.letGo lock })
  | .dropping lock result, s =>
    (.leaving result, { s with memory := s.memory.dropClone lock })
  | .leaving result, s => (.done result, { s with memory := s.memory.forgetLock version })
  | .done result, s => (.done result, s)
  | .abandoned, s => (.abandoned, s)

/-- What a download brought. -/
def downloaded (version : String) (reply : Except Http.TransferError Http.Reply) :
    Except CompilerError Bytes :=
  match reply with
  | .error e => .error (.download version e.message)
  | .ok reply =>
    if Http.isSuccess reply.status then
      reply.content.mapError fun e => .download version e.message
    else .error (.downloadStatus version reply.status)

/-- Goes on with a reply to a download. -/
def receive (version : String) (reply : Except Http.TransferError Http.Reply) : Stage → Stage
  | .requesting lock _ =>
    match downloaded version reply with
    | .ok content => .writing lock content
    | .error e => .releasing lock (.error e)
  | stage => stage

/-- Gives up a call where it may be given up. It lets go of its lock and drops its reference, but it
does not come to remove the lock. -/
def abandon : Stage → Memory → Stage × Memory
  | .waiting lock, m => (.abandoned, m.dropClone lock)
  | .probing lock, m | .requesting lock _, m | .writing lock _, m | .marking lock, m
  | .renaming lock, m => (.abandoned, (m.letGo lock).dropClone lock)
  | stage, m => (stage, m)

end Provenance.Cache
