import Provenance.Proofs.Cache.Memory
import Provenance.Proofs.Cache.Names
import Provenance.Proofs.Cache.Transition

/-!
# What is shown of a version

Three things are shown of a version: where it is installed, the lock that the table has for it, and what
stands at the places of its files. Two states may show the same of it and differ in all else
(`Shared.SameFor`). Locks are numbered in the order in which they are made, so that they are compared up to
a renumbering.
-/

namespace Provenance.Cache

variable {c : Cache} {version other path : String} {σ τ : Nat → Nat} {number : Nat}

/-! ## Numbers of locks -/

/-- A stage with another number of its lock. -/
def Stage.renumber (σ : Nat → Nat) : Stage → Stage
  | .starting => .starting
  | .looking => .looking
  | .waiting lock => .waiting (σ lock)
  | .checking lock => .checking (σ lock)
  | .probing lock => .probing (σ lock)
  | .requesting lock address => .requesting (σ lock) address
  | .writing lock content => .writing (σ lock) content
  | .marking lock => .marking (σ lock)
  | .renaming lock => .renaming (σ lock)
  | .recording lock isNew => .recording (σ lock) isNew
  | .releasing lock result => .releasing (σ lock) result
  | .dropping lock result => .dropping (σ lock) result
  | .leaving result => .leaving result
  | .done result => .done result
  | .abandoned => .abandoned

/-- A call with another number of its lock. -/
def Call.renumber (σ : Nat → Nat) (call : Call) : Call := { call with stage := call.stage.renumber σ }

namespace Stage

variable {stage stage' : Stage}

@[simp] theorem renumber_id : stage.renumber id = stage := by
  cases stage <;> rfl

/-- Only the number of its own lock matters. -/
theorem renumber_congr (h : ∀ number, stage.reference? = some number → τ number = σ number) :
    stage.renumber τ = stage.renumber σ := by
  cases stage <;> simp_all [renumber, reference?]

/-- Renumbering one to one keeps stages apart. -/
theorem renumber_injective (hσ : σ.Injective) : (renumber σ).Injective := by
  intro stage stage' h
  cases stage <;> cases stage' <;> simp_all [renumber, hσ.eq_iff]

end Stage

@[simp] theorem Call.renumber_id (call : Call) : call.renumber id = call :=
  congrArg (Call.mk call.version) Stage.renumber_id

/-! ## What the memory tells of a version -/

namespace Memory

variable {m m' m'' : Memory}

/-- Two memories tell the same of a version, when the locks of the first are renumbered. -/
structure SameFor (σ : Nat → Nat) (version : String) (m m' : Memory) : Prop where
  path : m'.path? version = m.path? version
  table : m'.lockOf? version = (m.lockOf? version).map σ
  lock : ∀ number, m.lockOf? version = some number → m'.locks[σ number]? = m.locks[number]?

namespace SameFor

theorem refl (version : String) (m : Memory) : SameFor id version m m :=
  ⟨rfl, by simp, fun _ _ => rfl⟩

theorem trans (h : SameFor σ version m m') (h' : SameFor τ version m' m'') :
    SameFor (τ ∘ σ) version m m'' where
  path := h'.path.trans h.path
  table := by rw [h'.table, h.table, Option.map_map]
  lock number hnumber := by
    have hnumber' : m'.lockOf? version = some (σ number) := by rw [h.table, hnumber]; rfl
    exact (h'.lock _ hnumber').trans (h.lock number hnumber)

theorem symm (h : SameFor id version m m') : SameFor id version m' m where
  path := h.path.symm
  table := by rw [h.table]; simp
  lock number hnumber := by
    rw [h.table, Option.map_id_fun, id] at hnumber
    exact (h.lock number hnumber).symm

/-- Other locks may be renumbered at will. -/
theorem renumber (h : SameFor σ version m m')
    (hτ : ∀ number, m.lockOf? version = some number → τ number = σ number) :
    SameFor τ version m m' where
  path := h.path
  table := by
    rw [h.table]
    cases hlock : m.lockOf? version with
    | none => rfl
    | some number => simp [hτ number hlock]
  lock number hnumber := by
    rw [hτ number hnumber]
    exact h.lock number hnumber

/-! ### Other versions -/

/-- A lock is changed that is another version's. -/
theorem of_modifyLock {change : Lock → Lock} (hother : m.lockOf? version ≠ some number) :
    SameFor id version m (m.modifyLock number change) where
  path := rfl
  table := by simp
  lock k hk := by
    rw [lock?_modifyLock, if_neg]
    · rfl
    · rintro rfl
      exact hother hk

theorem of_install (hne : version ≠ other) : SameFor id version m (m.install other path) where
  path := by rw [path?_install, if_neg hne]
  table := by simp
  lock _ _ := rfl

theorem of_takeLock (hne : version ≠ other)
    (hbound : ∀ k, m.lockOf? version = some k → k < m.locks.length)
    (hother : ∀ k, m.lockOf? version = some k → m.lockOf? other ≠ some k) :
    SameFor id version m (m.takeLock other).2 := by
  cases hlock : m.lockOf? other with
  | some number =>
    rw [takeLock_of_some hlock]
    exact of_modifyLock fun hk => hother number hk hlock
  | none =>
    refine ⟨path?_takeLock, ?_, ?_⟩
    · rw [lockOf?_takeLock, if_neg hne]
      simp
    · intro k hk
      rw [takeLock_of_none hlock]
      exact List.getElem?_append_left (hbound k hk)

theorem of_forgetLock (hne : version ≠ other) : SameFor id version m (m.forgetLock other) where
  path := path?_forgetLock
  table := by
    rw [lockOf?_forgetLock, if_neg (fun h => hne h.1)]
    simp
  lock k _ := by rw [locks_forgetLock]; rfl

/-! ### The version itself -/

theorem isHeld (h : SameFor σ version m m') (hnumber : m.lockOf? version = some number) :
    m'.isHeld (σ number) = m.isHeld number := by
  rw [isHeld_eq, isHeld_eq, h.lock number hnumber]

theorem modifyLock (h : SameFor σ version m m') (hnumber : m.lockOf? version = some number)
    (change : Lock → Lock) :
    SameFor σ version (m.modifyLock number change) (m'.modifyLock (σ number) change) where
  path := h.path
  table := h.table
  lock k hk := by
    obtain rfl : number = k := by
      rw [lockOf?_modifyLock, hnumber] at hk
      exact Option.some.inj hk
    rw [lock?_modifyLock, lock?_modifyLock, if_pos rfl, if_pos rfl, h.lock number hnumber]

theorem install (h : SameFor σ version m m') :
    SameFor σ version (m.install version path) (m'.install version path) where
  path := by rw [path?_install, path?_install, if_pos rfl, if_pos rfl]
  table := h.table
  lock := h.lock

/-- The lock of the version is taken in both, and gets the right number if it is made. -/
theorem takeLock (h : SameFor σ version m m')
    (hnew : m.lockOf? version = none → σ m.locks.length = m'.locks.length) :
    (m'.takeLock version).1 = σ (m.takeLock version).1 ∧
      SameFor σ version (m.takeLock version).2 (m'.takeLock version).2 := by
  have htable := h.table
  cases hlock : m.lockOf? version with
  | some number =>
    rw [hlock] at htable
    rw [takeLock_of_some hlock, takeLock_of_some htable]
    exact ⟨rfl, h.modifyLock hlock _⟩
  | none =>
    rw [hlock] at htable
    have hfst : (m'.takeLock version).1 = σ (m.takeLock version).1 := by
      rw [takeLock_of_none hlock, takeLock_of_none htable, hnew hlock]
    refine ⟨hfst, ?_, ?_, ?_⟩
    · rw [path?_takeLock, path?_takeLock, h.path]
    · rw [lockOf?_takeLock, lockOf?_takeLock, if_pos rfl, if_pos rfl, hfst]
      rfl
    · intro k hk
      rw [lockOf?_takeLock, if_pos rfl] at hk
      obtain rfl := Option.some.inj hk
      rw [← hfst, takeLock_of_none hlock, takeLock_of_none htable]
      simp

theorem forgetLock (h : SameFor σ version m m') :
    SameFor σ version (m.forgetLock version) (m'.forgetLock version) := by
  have hunused : (∃ number ∈ m'.lockOf? version, ∃ lock ∈ m'.locks[number]?, lock.clones = 0) ↔
      ∃ number ∈ m.lockOf? version, ∃ lock ∈ m.locks[number]?, lock.clones = 0 := by
    rw [h.table]
    cases hlock : m.lockOf? version with
    | none => simp
    | some number => simp [h.lock number hlock]
  refine ⟨?_, ?_, ?_⟩
  · rw [path?_forgetLock, path?_forgetLock, h.path]
  · rw [lockOf?_forgetLock, lockOf?_forgetLock]
    simp only [true_and, hunused]
    split
    · rfl
    · exact h.table
  · intro k hk
    rw [lockOf?_forgetLock] at hk
    rw [locks_forgetLock, locks_forgetLock]
    split at hk
    · cases hk
    · exact h.lock k hk

end SameFor

end Memory

/-! ## What is shared -/

/-- Two states of what calls share show the same of a version, when the locks of the first are
renumbered. -/
structure Shared.SameFor (c : Cache) (σ : Nat → Nat) (version : String) (s s' : Shared) : Prop where
  memory : Memory.SameFor σ version s.memory s'.memory
  files : c.SameFiles version s.disk s'.disk

namespace Shared.SameFor

variable {s s' s'' : Shared}

theorem trans (h : SameFor c σ version s s') (h' : SameFor c τ version s' s'') :
    SameFor c (τ ∘ σ) version s s'' :=
  ⟨h.memory.trans h'.memory, h.files.trans h'.files⟩

theorem symm (h : SameFor c id version s s') : SameFor c id version s' s :=
  ⟨h.memory.symm, h.files.symm⟩

theorem renumber (h : SameFor c σ version s s')
    (hτ : ∀ number, s.memory.lockOf? version = some number → τ number = σ number) :
    SameFor c τ version s s' :=
  ⟨h.memory.renumber hτ, h.files⟩

end Shared.SameFor

end Provenance.Cache
