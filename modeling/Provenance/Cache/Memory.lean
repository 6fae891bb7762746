import Provenance.Dictionary

/-!
# What the cache remembers

The compiler cache remembers which versions it knows to be installed, and keeps a lock for every
version that some call is about. A lock is named by its number; the table says which lock is that of
a version.
-/

namespace Provenance.Cache

/-- A lock, which at most one call holds. -/
structure Lock where
  /-- Calls that have a reference to it. -/
  clones : Nat
  isHeld : Bool
  deriving DecidableEq, Repr

/-- What the cache remembers. -/
structure Memory where
  /-- Paths of the versions known to be installed. -/
  installed : List (String × String)
  /-- The number of a version's lock. -/
  table : List (String × Nat)
  /-- All locks that ever were, by number. -/
  locks : List Lock
  deriving DecidableEq, Repr

namespace Memory

/-- What a new cache remembers. -/
def empty : Memory := ⟨[], [], []⟩

/-- Where a version is known to be installed. -/
def path? (m : Memory) (version : String) : Option String := Dictionary.get? version m.installed

/-- Remembers where a version is installed. -/
def install (version path : String) (m : Memory) : Memory :=
  { m with installed := Dictionary.insert version path m.installed }

/-- Changes a lock. -/
def modifyLock (number : Nat) (change : Lock → Lock) (m : Memory) : Memory :=
  { m with locks := m.locks.modify number change }

/-- The lock of a version, with one more reference to it. It is made if there is none. -/
def takeLock (version : String) (m : Memory) : Nat × Memory :=
  match Dictionary.get? version m.table with
  | some number => (number, m.modifyLock number fun l => { l with clones := l.clones + 1 })
  | none =>
    (m.locks.length,
      { m with
        table := Dictionary.insert version m.locks.length m.table
        locks := m.locks ++ [⟨1, false⟩] })

/-- Whether a lock is held. -/
def isHeld (m : Memory) (number : Nat) : Bool :=
  match m.locks[number]? with
  | some lock => lock.isHeld
  | none => false

/-- Takes a lock. -/
def hold (number : Nat) (m : Memory) : Memory :=
  m.modifyLock number fun l => { l with isHeld := true }

/-- Lets go of a lock. -/
def letGo (number : Nat) (m : Memory) : Memory :=
  m.modifyLock number fun l => { l with isHeld := false }

/-- Drops a reference to a lock. -/
def dropClone (number : Nat) (m : Memory) : Memory :=
  m.modifyLock number fun l => { l with clones := l.clones - 1 }

/-- Forgets the lock of a version to which no call refers. -/
def forgetLock (version : String) (m : Memory) : Memory :=
  match Dictionary.get? version m.table with
  | none => m
  | some number =>
    match m.locks[number]? with
    | some lock =>
      if lock.clones = 0 then { m with table := Dictionary.erase version m.table } else m
    | none => m

end Memory

end Provenance.Cache
