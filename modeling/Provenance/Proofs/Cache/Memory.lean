import Provenance.Cache.Memory

/-!
# What operations on the memory do

Three things can be seen of a cache's memory: where a version is installed, which lock the table has
for it, and what a lock looks like. Each operation is described by what it does to these.
-/

namespace Provenance.Cache.Memory

variable {m : Memory} {version other path : String} {number k : Nat}

/-- The lock that the table has for a version. -/
def lockOf? (m : Memory) (version : String) : Option Nat := Dictionary.get? version m.table

/-! ## Paths -/

@[simp] theorem path?_install :
    (m.install version path).path? other = if other = version then some path else m.path? other :=
  Dictionary.get?_insert

@[simp] theorem path?_modifyLock {change : Lock → Lock} :
    (m.modifyLock number change).path? version = m.path? version := rfl

@[simp] theorem path?_hold : (m.hold number).path? version = m.path? version := rfl

@[simp] theorem path?_letGo : (m.letGo number).path? version = m.path? version := rfl

@[simp] theorem path?_dropClone : (m.dropClone number).path? version = m.path? version := rfl

@[simp] theorem path?_takeLock : (m.takeLock version).2.path? other = m.path? other := by
  unfold takeLock
  split <;> rfl

@[simp] theorem path?_forgetLock : (m.forgetLock version).path? other = m.path? other := by
  unfold forgetLock
  grind [path?]

/-! ## The table -/

@[simp] theorem lockOf?_install : (m.install version path).lockOf? other = m.lockOf? other := rfl

@[simp] theorem lockOf?_modifyLock {change : Lock → Lock} :
    (m.modifyLock number change).lockOf? version = m.lockOf? version := rfl

@[simp] theorem lockOf?_hold : (m.hold number).lockOf? version = m.lockOf? version := rfl

@[simp] theorem lockOf?_letGo : (m.letGo number).lockOf? version = m.lockOf? version := rfl

@[simp] theorem lockOf?_dropClone : (m.dropClone number).lockOf? version = m.lockOf? version := rfl

/-- A lock that is there gets one more reference. -/
theorem takeLock_of_some (h : m.lockOf? version = some number) :
    m.takeLock version
      = (number, m.modifyLock number fun l => { l with clones := l.clones + 1 }) := by
  unfold lockOf? at h
  rw [takeLock, h]

/-- A lock that is not there is made. -/
theorem takeLock_of_none (h : m.lockOf? version = none) :
    m.takeLock version
      = (m.locks.length,
          { m with
            table := Dictionary.insert version m.locks.length m.table
            locks := m.locks ++ [⟨1, false⟩] }) := by
  unfold lockOf? at h
  rw [takeLock, h]

/-- A version has the lock that was taken for it. -/
theorem lockOf?_takeLock :
    (m.takeLock version).2.lockOf? other
      = if other = version then some (m.takeLock version).1 else m.lockOf? other := by
  cases h : m.lockOf? version with
  | none =>
    rw [takeLock_of_none h]
    exact Dictionary.get?_insert
  | some number =>
    rw [takeLock_of_some h, lockOf?_modifyLock]
    split
    · next heq => rw [heq, h]
    · rfl

/-- The entry of a version is removed when nothing refers to its lock. -/
theorem lockOf?_forgetLock :
    (m.forgetLock version).lockOf? other
      = if other = version ∧ ∃ number ∈ m.lockOf? version, ∃ lock ∈ m.locks[number]?, lock.clones = 0
        then none else m.lockOf? other := by
  unfold forgetLock lockOf?
  cases h : Dictionary.get? version m.table with
  | none => simp
  | some number =>
    cases hlock : m.locks[number]? with
    | none => simp [hlock]
    | some lock =>
      by_cases hzero : lock.clones = 0
      · simp only [hzero, if_true, hlock, Option.mem_def, Option.some.injEq, exists_eq_left', and_true]
        exact Dictionary.get?_erase
      · simp [hzero, hlock]

/-! ## Locks -/

@[simp] theorem locks_install : (m.install version path).locks = m.locks := rfl

@[simp] theorem locks_forgetLock : (m.forgetLock version).locks = m.locks := by
  unfold forgetLock
  grind

@[simp] theorem length_modifyLock {change : Lock → Lock} :
    (m.modifyLock number change).locks.length = m.locks.length :=
  List.length_modify _ _ _

theorem lock?_modifyLock {change : Lock → Lock} :
    (m.modifyLock number change).locks[k]?
      = if k = number then (m.locks[k]?).map change else m.locks[k]? := by
  rw [modifyLock, List.getElem?_modify]
  by_cases h : k = number
  · simp [h]
  · simp [h, Ne.symm h]

theorem isHeld_eq_true_iff :
    m.isHeld number = true ↔ ∃ lock, m.locks[number]? = some lock ∧ lock.isHeld = true := by
  unfold isHeld
  cases m.locks[number]? <;> simp

/-! ## Held locks -/

theorem isHeld_eq : m.isHeld k = (m.locks[k]?.map (·.isHeld)).getD false := by
  unfold isHeld
  cases m.locks[k]? <;> rfl

theorem isHeld_modifyLock {change : Lock → Lock} (hsame : ∀ lock, (change lock).isHeld = lock.isHeld) :
    (m.modifyLock number change).isHeld k = m.isHeld k := by
  rw [isHeld_eq, isHeld_eq, lock?_modifyLock]
  by_cases hk : k = number
  · simp [hk, Function.comp_def, hsame]
  · rw [if_neg hk]

@[simp] theorem isHeld_install : (m.install version path).isHeld k = m.isHeld k := rfl

@[simp] theorem isHeld_dropClone : (m.dropClone number).isHeld k = m.isHeld k :=
  isHeld_modifyLock fun _ => rfl

@[simp] theorem isHeld_forgetLock : (m.forgetLock version).isHeld k = m.isHeld k := by
  rw [isHeld, locks_forgetLock]
  rfl

theorem isHeld_hold (h : k ≠ number) : (m.hold number).isHeld k = m.isHeld k := by
  rw [isHeld_eq, isHeld_eq, hold, lock?_modifyLock, if_neg h]

theorem isHeld_letGo : (m.letGo number).isHeld k = if k = number then false else m.isHeld k := by
  rw [isHeld_eq, isHeld_eq, letGo, lock?_modifyLock]
  by_cases hk : k = number
  · rw [if_pos hk, if_pos hk]
    cases m.locks[k]? <;> rfl
  · rw [if_neg hk, if_neg hk]

/-- A lock that is made is free. -/
@[simp] theorem isHeld_takeLock : (m.takeLock version).2.isHeld k = m.isHeld k := by
  cases h : m.lockOf? version with
  | some number =>
    rw [takeLock_of_some h]
    exact isHeld_modifyLock fun _ => rfl
  | none =>
    rw [takeLock_of_none h, isHeld_eq, isHeld_eq]
    dsimp only
    rcases Nat.lt_or_ge k m.locks.length with hlt | hge
    · rw [List.getElem?_append_left hlt]
    · rw [List.getElem?_append_right hge, List.getElem?_eq_none hge]
      cases hlock : ([⟨1, false⟩] : List Lock)[k - m.locks.length]? with
      | none => rfl
      | some lock =>
        rw [List.mem_singleton.1 (List.mem_of_getElem? hlock)]
        rfl

/-! ## Taking a lock -/

section
variable {taken : Memory} (h : m.takeLock version = (number, taken))
include h

theorem path?_of_takeLock : taken.path? other = m.path? other := by
  have hpath := @path?_takeLock m version other
  rwa [h] at hpath

theorem lockOf?_of_takeLock :
    taken.lockOf? other = if other = version then some number else m.lockOf? other := by
  have hlockOf := @lockOf?_takeLock m version other
  rwa [h] at hlockOf

theorem isHeld_of_takeLock : taken.isHeld k = m.isHeld k := by
  have hheld := @isHeld_takeLock m version k
  rwa [h] at hheld

end

end Provenance.Cache.Memory
