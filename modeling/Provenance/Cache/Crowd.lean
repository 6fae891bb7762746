import Provenance.Cache.Step

/-!
# Calls side by side

Any number of calls, each at its own stage, which share the memory of the cache and the disk. They
move one at a time and in any order.
-/

namespace Provenance.Cache

/-- A call about a version. -/
structure Call where
  version : String
  stage : Stage
  deriving Repr

/-- The calls that have come so far, in the order in which they came, and what they share. -/
structure Crowd where
  calls : List Call
  shared : Shared
  deriving Repr

/-- What happens next in a crowd. Calls are named by the number of those that came before. -/
inductive Move where
  | arrive (version : String)
  /-- A call goes a step. -/
  | advance (call : Nat) (mishap : Option Mishap)
  /-- A call gets the reply to its download. -/
  | reply (call : Nat) (reply : Except Http.TransferError Http.Reply)
  /-- A call is given up. -/
  | abandon (call : Nat)

namespace Crowd

/-- Nobody has come yet. -/
def start (disk : Disk) : Crowd := ⟨[], ⟨.empty, disk⟩⟩

/-- Brings a call to another stage. -/
def moveTo (crowd : Crowd) (number : Nat) (stage : Stage) (shared : Shared) : Crowd :=
  ⟨crowd.calls.modify number fun call => { call with stage }, shared⟩

/-- What a move makes of a crowd. A move of a call that has not come changes nothing. -/
def play (c : Cache) (crowd : Crowd) : Move → Crowd
  | .arrive version => { crowd with calls := crowd.calls ++ [⟨version, .starting⟩] }
  | .advance number mishap =>
    match crowd.calls[number]? with
    | none => crowd
    | some call =>
      match step c call.version mishap call.stage crowd.shared with
      | (stage, shared) => crowd.moveTo number stage shared
  | .reply number reply =>
    match crowd.calls[number]? with
    | none => crowd
    | some call => crowd.moveTo number (receive call.version reply call.stage) crowd.shared
  | .abandon number =>
    match crowd.calls[number]? with
    | none => crowd
    | some call =>
      match Cache.abandon call.stage crowd.shared.memory with
      | (stage, memory) => crowd.moveTo number stage { crowd.shared with memory }

/-- What moves make of a crowd, one after the other. -/
def run (c : Cache) (crowd : Crowd) (moves : List Move) : Crowd := moves.foldl (play c) crowd

end Crowd

end Provenance.Cache
