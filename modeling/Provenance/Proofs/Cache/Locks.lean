import Mathlib.Data.List.Induction
import Provenance.Proofs.Cache.Memory
import Provenance.Proofs.Cache.Transition

/-!
# The lock table

At any time the calls about a version that refer to a lock all refer to the one that the table has for
this version, the count of references is right, and a lock is held by at most one call
(`LocksMatch`). As long as no call is given up, an entry stays only while some call about its version is
on the way (`EntriesServe`).
-/

namespace Provenance.Cache

variable {c : Cache} {version : String} {move : Move} {stage : Stage} {s s' : Shared}
  {m m' : Memory} {before after calls : List Call} {call : Call} {number k : Nat} {crowd : Crowd}

/-! ## Counting -/

/-- How many of some calls refer to a lock. -/
def references (number : Nat) (calls : List Call) : Nat :=
  calls.countP fun call => call.stage.reference? = some number

/-- How many of some calls hold a lock. -/
def holders (number : Nat) (calls : List Call) : Nat :=
  calls.countP fun call => call.stage.held? = some number

theorem references_split : references number (before ++ call :: after)
    = references number (before ++ after) + if call.stage.reference? = some number then 1 else 0 := by
  simp only [references, List.countP_append, List.countP_cons, decide_eq_true_eq]
  omega

theorem holders_split : holders number (before ++ call :: after)
    = holders number (before ++ after) + if call.stage.held? = some number then 1 else 0 := by
  simp only [holders, List.countP_append, List.countP_cons, decide_eq_true_eq]
  omega

theorem references_pos_iff :
    0 < references number calls ↔ ∃ call ∈ calls, call.stage.reference? = some number := by
  simp [references, List.countP_pos_iff]

theorem holders_pos_iff :
    0 < holders number calls ↔ ∃ call ∈ calls, call.stage.held? = some number := by
  simp [holders, List.countP_pos_iff]

/-- Who holds a lock refers to it. -/
theorem holders_le_references : holders number calls ≤ references number calls := by
  refine List.countP_mono_left ?_
  intro call _ hheld
  rw [decide_eq_true_eq] at hheld ⊢
  exact Stage.reference?_of_held? hheld

theorem mem_split {x : Call} : x ∈ before ++ call :: after ↔ x = call ∨ x ∈ before ++ after := by
  simp only [List.mem_append, List.mem_cons]
  tauto

/-- What holds of all calls holds of one of them and of the others. -/
theorem forall_mem_split {P : Call → Prop} :
    (∀ x ∈ before ++ call :: after, P x) ↔ P call ∧ ∀ x ∈ before ++ after, P x := by
  simp only [mem_split, forall_eq_or_imp]

/-! ## Locks as they are used -/

/-- The locks are as the calls use them. -/
structure LocksMatch (calls : List Call) (m : Memory) : Prop where
  /-- The references of a lock are counted. -/
  clones : ∀ number lock, m.locks[number]? = some lock → lock.clones = references number calls
  /-- A lock that is held is held by one call, and no call holds one that is free. -/
  holders : ∀ number lock, m.locks[number]? = some lock →
    holders number calls = if lock.isHeld then 1 else 0
  /-- Calls refer to the lock that the table has for their version. -/
  entry : ∀ call ∈ calls, ∀ number, call.stage.reference? = some number →
    m.lockOf? call.version = some number
  /-- What the table tells are locks. -/
  bound : ∀ version number, m.lockOf? version = some number → number < m.locks.length
  /-- Versions have different locks. -/
  apart : ∀ version other number, m.lockOf? version = some number →
    m.lockOf? other = some number → version = other

namespace LocksMatch

theorem start : LocksMatch [] .empty where
  clones _ _ h := by simp [Memory.empty] at h
  holders _ _ h := by simp [Memory.empty] at h
  entry _ h := by simp at h
  bound _ _ h := by simp [Memory.empty, Memory.lockOf?, Dictionary.get?] at h
  apart _ _ _ h := by simp [Memory.empty, Memory.lockOf?, Dictionary.get?] at h

/-- A call that uses no lock may come. -/
theorem arrive (h : LocksMatch calls m) : LocksMatch (calls ++ [⟨version, .starting⟩]) m where
  clones number lock hlock := by
    rw [references_split, List.append_nil, h.clones number lock hlock]
    rfl
  holders number lock hlock := by
    rw [holders_split, List.append_nil, h.holders number lock hlock]
    rfl
  entry := List.forall_mem_append.2 ⟨h.entry, List.forall_mem_singleton.2 nofun⟩
  bound := h.bound
  apart := h.apart

/-- A call goes on with the same references, and no lock is touched. -/
theorem keep (h : LocksMatch (before ++ call :: after) m)
    (href : stage.reference? = call.stage.reference?) (hheld : stage.held? = call.stage.held?)
    (hlocks : m'.locks = m.locks) (htable : ∀ version, m'.lockOf? version = m.lockOf? version) :
    LocksMatch (before ++ ⟨call.version, stage⟩ :: after) m' where
  clones number lock hlock := by
    rw [hlocks] at hlock
    rw [h.clones number lock hlock, references_split, references_split, href]
  holders number lock hlock := by
    rw [hlocks] at hlock
    rw [← h.holders number lock hlock, holders_split, holders_split, hheld]
  entry x hx number hnumber := by
    rw [htable]
    rcases mem_split.1 hx with rfl | hx
    · exact h.entry call (by simp) number (href ▸ hnumber)
    · exact h.entry x (mem_split.2 (.inr hx)) number hnumber
  bound version number hentry := by
    rw [hlocks]
    exact h.bound version number (htable version ▸ hentry)
  apart version other number hversion hother :=
    h.apart version other number (htable version ▸ hversion) (htable other ▸ hother)

/-- No call refers to a lock that is not there. -/
theorem references_eq_zero (h : LocksMatch calls m) (hnone : m.locks.length ≤ k) :
    references k calls = 0 := by
  refine Nat.eq_zero_of_not_pos ?_
  intro hpos
  obtain ⟨call, hcall, href⟩ := references_pos_iff.1 hpos
  have := h.bound _ _ (h.entry call hcall k href)
  omega

/-- A call goes on with other references to one lock, and this lock is changed with it. -/
theorem modify (h : LocksMatch (before ++ call :: after) m) {change : Lock → Lock}
    (href : ∀ k ≠ number, stage.reference? = some k ↔ call.stage.reference? = some k)
    (hheld : ∀ k ≠ number, stage.held? = some k ↔ call.stage.held? = some k)
    (hentry : stage.reference? = some number → m.lockOf? call.version = some number)
    (hclones : ∀ lock, m.locks[number]? = some lock →
      lock.clones = references number (before ++ call :: after) →
      (change lock).clones = references number (before ++ ⟨call.version, stage⟩ :: after))
    (hholders : ∀ lock, m.locks[number]? = some lock →
      Cache.holders number (before ++ call :: after) = (if lock.isHeld then 1 else 0) →
      Cache.holders number (before ++ ⟨call.version, stage⟩ :: after)
        = if (change lock).isHeld then 1 else 0) :
    LocksMatch (before ++ ⟨call.version, stage⟩ :: after) (m.modifyLock number change) where
  clones k lock hlock := by
    rw [Memory.lock?_modifyLock] at hlock
    split at hlock
    · next hk =>
      obtain ⟨old, hold, rfl⟩ := Option.map_eq_some_iff.1 hlock
      rw [hk] at hold ⊢
      exact hclones old hold (h.clones number old hold)
    · next hk =>
      rw [h.clones k lock hlock, references_split, references_split]
      simp only [href k hk]
  holders k lock hlock := by
    rw [Memory.lock?_modifyLock] at hlock
    split at hlock
    · next hk =>
      obtain ⟨old, hold, rfl⟩ := Option.map_eq_some_iff.1 hlock
      rw [hk] at hold ⊢
      exact hholders old hold (h.holders number old hold)
    · next hk =>
      rw [← h.holders k lock hlock, holders_split, holders_split]
      simp only [hheld k hk]
  entry x hx k hk := by
    rw [Memory.lockOf?_modifyLock]
    rcases mem_split.1 hx with rfl | hx
    · by_cases hkn : k = number
      · rw [hkn] at hk ⊢
        exact hentry hk
      · exact h.entry call (mem_split.2 (.inl rfl)) k ((href k hkn).1 hk)
    · exact h.entry x (mem_split.2 (.inr hx)) k hk
  bound version k hk := by
    rw [Memory.length_modifyLock]
    exact h.bound version k hk
  apart := h.apart

/-- A call takes a new lock, since there is none for its version. -/
theorem takeNew (h : LocksMatch (before ++ call :: after) m)
    (hnone : call.stage.reference? = none) (hfree : call.stage.held? = none)
    (href : stage.reference? = some m.locks.length) (hheld : stage.held? = none)
    (hentry : m.lockOf? call.version = none) (htable : ∀ version, m'.lockOf? version
      = if version = call.version then some m.locks.length else m.lockOf? version)
    (hlocks : m'.locks = m.locks ++ [⟨1, false⟩]) :
    LocksMatch (before ++ ⟨call.version, stage⟩ :: after) m' where
  clones k lock hlock := by
    rw [hlocks, List.getElem?_append] at hlock
    simp only [references_split, href]
    split at hlock
    · next hk =>
      have hclones := h.clones k lock hlock
      simp only [references_split, hnone] at hclones
      simp [hclones, (Nat.ne_of_lt hk).symm]
    · next hk =>
      have hzero := h.references_eq_zero (Nat.le_of_not_lt hk)
      simp only [references_split, hnone] at hzero
      obtain ⟨hk', rfl⟩ : k = m.locks.length ∧ lock = ⟨1, false⟩ := by
        grind
      simp_all
  holders k lock hlock := by
    rw [hlocks, List.getElem?_append] at hlock
    have hsame : Cache.holders k (before ++ ⟨call.version, stage⟩ :: after)
        = Cache.holders k (before ++ call :: after) := by
      simp only [holders_split, hheld, hfree]
    rw [hsame]
    split at hlock
    · exact h.holders k lock hlock
    · next hk =>
      have hzero := h.references_eq_zero (Nat.le_of_not_lt hk)
      have hle := @holders_le_references (before ++ call :: after) k
      obtain rfl : lock = ⟨1, false⟩ := by
        grind
      simp_all
  entry x hx k hk := by
    rw [htable]
    rcases mem_split.1 hx with rfl | hx
    · rw [if_pos rfl, ← href, ← hk]
    · have hold := h.entry x (mem_split.2 (.inr hx)) k hk
      rw [if_neg]
      · exact hold
      · intro heq
        rw [heq, hentry] at hold
        cases hold
  bound version k hk := by
    rw [hlocks, List.length_append, List.length_singleton]
    rw [htable] at hk
    split at hk
    · have := Option.some.inj hk
      omega
    · have := h.bound version k hk
      omega
  apart version other k hversion hother := by
    rw [htable] at hversion hother
    have hbound := fun version => h.bound version k
    have hapart := h.apart version other k
    grind

/-- A call that refers to no lock takes the one of its version. -/
theorem take (h : LocksMatch (before ++ call :: after) m)
    (hnone : call.stage.reference? = none) (hfree : call.stage.held? = none)
    (href : stage.reference? = some number) (hheld : stage.held? = none)
    (htake : m.takeLock call.version = (number, m')) :
    LocksMatch (before ++ ⟨call.version, stage⟩ :: after) m' := by
  cases hentry : m.lockOf? call.version with
  | some k =>
    rw [Memory.takeLock_of_some hentry, Prod.mk.injEq] at htake
    obtain ⟨rfl, rfl⟩ := htake
    refine h.modify ?_ ?_ (fun _ => hentry) ?_ ?_
    · intro other hother
      simp [hnone, href, Ne.symm hother]
    · simp [hfree, hheld]
    · simp [references_split, hnone, href]
    · simp [holders_split, hfree, hheld]
  | none =>
    have htable : ∀ version, m'.lockOf? version
        = if version = call.version then some number else m.lockOf? version := fun _ =>
      Memory.lockOf?_of_takeLock htake
    rw [Memory.takeLock_of_none hentry, Prod.mk.injEq] at htake
    obtain ⟨rfl, rfl⟩ := htake
    exact h.takeNew hnone hfree href hheld hentry htable rfl

/-- A call takes hold of a free lock to which it refers. -/
theorem hold (h : LocksMatch (before ++ call :: after) m)
    (href : stage.reference? = call.stage.reference?) (hfree : call.stage.held? = none)
    (hheld : stage.held? = some number) (hisFree : m.isHeld number = false) :
    LocksMatch (before ++ ⟨call.version, stage⟩ :: after) (m.hold number) := by
  refine h.modify ?_ ?_ ?_ ?_ ?_
  · simp [href]
  · intro k hk
    simp [hfree, hheld, Ne.symm hk]
  · intro hnumber
    exact h.entry call (mem_split.2 (.inl rfl)) number (href ▸ hnumber)
  · simp [references_split, href]
  · intro lock hlock
    have hlockFree : lock.isHeld = false := by simpa [Memory.isHeld, hlock] using hisFree
    simp [holders_split, hfree, hheld, hlockFree]

/-- A call lets go of its lock, but still refers to it. -/
theorem letGo (h : LocksMatch (before ++ call :: after) m)
    (href : stage.reference? = call.stage.reference?) (hheld : call.stage.held? = some number)
    (hfree : stage.held? = none) :
    LocksMatch (before ++ ⟨call.version, stage⟩ :: after) (m.letGo number) := by
  refine h.modify ?_ ?_ ?_ ?_ ?_
  · simp [href]
  · intro k hk
    simp [hfree, hheld, Ne.symm hk]
  · intro hnumber
    exact h.entry call (mem_split.2 (.inl rfl)) number (href ▸ hnumber)
  · simp [references_split, href]
  · intro lock _
    simp only [holders_split, hfree, hheld]
    grind

/-- A call drops its reference to a lock that it does not hold. -/
theorem drop (h : LocksMatch (before ++ call :: after) m)
    (href : call.stage.reference? = some number) (hfree : call.stage.held? = none)
    (hnone : stage.reference? = none) (hnotHeld : stage.held? = none) :
    LocksMatch (before ++ ⟨call.version, stage⟩ :: after) (m.dropClone number) := by
  refine h.modify ?_ ?_ ?_ ?_ ?_
  · intro k hk
    simp [href, hnone, Ne.symm hk]
  · simp [hfree, hnotHeld]
  · simp [hnone]
  · simp only [references_split, href, hnone]
    grind
  · simp [holders_split, hfree, hnotHeld]

/-- A call that refers to no lock removes the entry of its version, if nothing refers to that lock. -/
theorem leave (h : LocksMatch (before ++ call :: after) m)
    (hnone : call.stage.reference? = none) (hfree : call.stage.held? = none)
    (hstill : stage.reference? = none) (hnotHeld : stage.held? = none) :
    LocksMatch (before ++ ⟨call.version, stage⟩ :: after) (m.forgetLock call.version) where
  clones k lock hlock := by
    rw [Memory.locks_forgetLock] at hlock
    rw [h.clones k lock hlock, references_split, references_split, hnone, hstill]
  holders k lock hlock := by
    rw [Memory.locks_forgetLock] at hlock
    rw [← h.holders k lock hlock, holders_split, holders_split, hfree, hnotHeld]
  entry x hx k hk := by
    rcases mem_split.1 hx with rfl | hx
    · rw [hstill] at hk
      cases hk
    · have hmem : x ∈ before ++ call :: after := mem_split.2 (.inr hx)
      have hentry := h.entry x hmem k hk
      rw [Memory.lockOf?_forgetLock, if_neg]
      · exact hentry
      · -- the reference of this call is counted, so that its lock stays
        rintro ⟨hversion, number, hnumber, lock, hlock, hzero⟩
        rw [← hversion, hentry] at hnumber
        obtain rfl := Option.some.inj hnumber
        have hclones := h.clones k lock hlock
        have hpos := references_pos_iff.2 ⟨x, hmem, hk⟩
        omega
  bound version k hk := by
    rw [Memory.locks_forgetLock]
    rw [Memory.lockOf?_forgetLock] at hk
    split at hk
    · cases hk
    · exact h.bound version k hk
  apart version other k hversion hother := by
    rw [Memory.lockOf?_forgetLock] at hversion hother
    split at hversion
    · cases hversion
    · split at hother
      · cases hother
      · exact h.apart version other k hversion hother

/-- Whatever a call does, the locks stay as the calls use them. -/
theorem transition (h : LocksMatch (before ++ call :: after) s.memory)
    (ht : Transition c call.version move call.stage s stage s') :
    LocksMatch (before ++ ⟨call.version, stage⟩ :: after) s'.memory := by
  obtain ⟨version, old⟩ := call
  dsimp only at ht ⊢
  cases ht with
  | take taken => exact h.take rfl rfl rfl rfl taken
  | hold free => exact h.hold rfl rfl rfl free
  | letGo => exact h.letGo rfl rfl rfl
  | drop => exact h.drop rfl rfl rfl rfl
  | leave => exact h.leave rfl rfl rfl rfl
  | giveUpWaiting => exact h.drop rfl rfl rfl rfl
  | @giveUpHolding _ _ lock _ _ held =>
    -- it is as if it had let go first
    have hletGo : LocksMatch (before ++ ⟨version, .dropping lock (.ok "")⟩ :: after)
        (s.memory.letGo lock) := h.letGo (Stage.reference?_of_held? held).symm held rfl
    exact hletGo.drop rfl rfl rfl rfl
  | fail _ held =>
    exact h.keep (Stage.reference?_of_held? held).symm held.symm rfl fun _ => rfl
  | _ => exact h.keep rfl rfl rfl fun _ => rfl

theorem play (h : LocksMatch crowd.calls crowd.shared.memory) :
    LocksMatch (crowd.play c move).calls (crowd.play c move).shared.memory := by
  rcases crowd.play_cases c move with ⟨version, -, hplay⟩ | hplay |
    ⟨before, call, after, stage, s, hcalls, -, hplay, ht⟩
  · rw [hplay]
    exact h.arrive
  · rw [hplay]
    exact h
  · rw [hplay]
    rw [hcalls] at h
    exact h.transition ht

/-- In a run from a new cache the locks are at any time as the calls use them. -/
theorem run (disk : Disk) (moves : List Move) :
    LocksMatch ((Crowd.start disk).run c moves).calls
      ((Crowd.start disk).run c moves).shared.memory := by
  induction moves using List.reverseRecOn with
  | nil => exact start
  | append_singleton moves move ih =>
    rw [Crowd.run_concat]
    exact ih.play

/-! ## Holding alone -/

/-- A lock that is there is held exactly if some call holds it. -/
theorem isHeld_iff (h : LocksMatch calls m) (hbound : number < m.locks.length) :
    m.isHeld number = true ↔ ∃ call ∈ calls, call.stage.held? = some number := by
  have hlock := List.getElem?_eq_getElem hbound
  rw [← holders_pos_iff, h.holders number _ hlock, Memory.isHeld_eq_true_iff, hlock]
  by_cases hheld : m.locks[number].isHeld = true
  · simp [hheld]
  · simp [hheld]

/-- Two calls that hold locks are about different versions. -/
theorem version_ne (h : LocksMatch (before ++ call :: after) m) {x : Call}
    (hheld : call.stage.held? = some number) (hx : x ∈ before ++ after)
    (hother : x.stage.held? = some k) : x.version ≠ call.version := by
  intro hversion
  obtain ⟨hcall, hothers⟩ := forall_mem_split.1 h.entry
  have hentry := hcall number (Stage.reference?_of_held? hheld)
  have hk := hothers x hx k (Stage.reference?_of_held? hother)
  rw [hversion, hentry, Option.some.injEq] at hk
  -- both would be counted
  have hpos : 0 < Cache.holders number (before ++ after) := holders_pos_iff.2 ⟨x, hx, hk ▸ hother⟩
  have hholders := h.holders number _ (List.getElem?_eq_getElem (h.bound _ _ hentry))
  rw [holders_split, if_pos hheld] at hholders
  split at hholders <;> omega

end LocksMatch

/-- The call with a number is the one behind so many. -/
theorem exists_split {i : Nat} (h : calls[i]? = some call) :
    ∃ before after, calls = before ++ call :: after ∧ before.length = i := by
  obtain ⟨hlt, rfl⟩ := List.getElem?_eq_some_iff.1 h
  refine ⟨calls.take i, calls.drop (i + 1), ?_, List.length_take_of_le (Nat.le_of_lt hlt)⟩
  rw [List.getElem_cons_drop, List.take_append_drop]

/-- A call with another number is one of the others. -/
theorem mem_of_getElem?_ne {x : Call} {i : Nat} (h : (before ++ call :: after)[i]? = some x)
    (hne : i ≠ before.length) : x ∈ before ++ after := by
  rcases Nat.lt_or_gt_of_ne hne with hlt | hgt
  · rw [List.getElem?_append_left hlt] at h
    exact List.mem_append_left _ (List.mem_of_getElem? h)
  · rw [List.getElem?_append_right (Nat.le_of_lt hgt), List.getElem?_cons, if_neg (by omega)] at h
    exact List.mem_append_right _ (List.mem_of_getElem? h)

/-- At most one call about a version holds its lock. -/
theorem LocksMatch.holder_unique (h : LocksMatch calls m) {x : Call} {i j k : Nat}
    (hi : calls[i]? = some call) (hj : calls[j]? = some x) (hversion : x.version = call.version)
    (hcall : call.stage.held? = some number) (hx : x.stage.held? = some k) : i = j := by
  obtain ⟨before, after, rfl, hlen⟩ := exists_split hi
  by_contra hne
  exact h.version_ne hcall (mem_of_getElem?_ne hj (hlen ▸ Ne.symm hne)) hx hversion

/-! ## Entries that serve a call -/

/-- Whether a call is about to remove its version's entry. -/
def Stage.isLeaving : Stage → Bool
  | .leaving _ => true
  | _ => false

/-- The entry of a version is for calls on the way. -/
def EntryServes (calls : List Call) (m : Memory) (version : String) : Prop :=
  ∀ number, m.lockOf? version = some number → ∃ call ∈ calls, call.version = version ∧
    (call.stage.reference? = some number ∨ call.stage.isLeaving = true)

/-- Every entry of the table is for calls on the way. -/
def EntriesServe (calls : List Call) (m : Memory) : Prop := ∀ version, EntryServes calls m version

/-- What a call does leaves the entries of other versions. -/
theorem Transition.lockOf?_of_ne {other : String} {stage' : Stage}
    (ht : Transition c version move stage s stage' s') (hne : other ≠ version) :
    s'.memory.lockOf? other = s.memory.lockOf? other := by
  cases ht with
  | take taken => exact (Memory.lockOf?_of_takeLock taken).trans (if_neg hne)
  | leave =>
    rw [Memory.lockOf?_forgetLock, if_neg]
    rintro ⟨heq, -⟩
    exact hne heq
  | _ => rfl

namespace EntryServes

/-- An entry that is not touched still serves, if the call that goes on is about another version or no
less on the way. -/
theorem keep (h : EntryServes (before ++ call :: after) m version)
    (huse : call.version = version → ∀ number,
      call.stage.reference? = some number ∨ call.stage.isLeaving = true →
        stage.reference? = some number ∨ stage.isLeaving = true)
    (htable : m'.lockOf? version = m.lockOf? version) :
    EntryServes (before ++ ⟨call.version, stage⟩ :: after) m' version := by
  intro number hentry
  rw [htable] at hentry
  obtain ⟨x, hx, hversion, hx'⟩ := h number hentry
  rcases mem_split.1 hx with rfl | hx
  · exact ⟨_, mem_split.2 (.inl rfl), hversion, huse hversion number hx'⟩
  · exact ⟨x, mem_split.2 (.inr hx), hversion, hx'⟩

/-- The lock that a call takes serves this call. -/
theorem take (htake : m.takeLock version = (number, m')) (href : stage.reference? = some number) :
    EntryServes (before ++ ⟨version, stage⟩ :: after) m' version := by
  intro k hentry
  rw [Memory.lockOf?_of_takeLock htake, if_pos rfl] at hentry
  exact ⟨_, mem_split.2 (.inl rfl), rfl, .inl (href.trans hentry)⟩

/-- An entry that a call leaves behind serves another call, also if it served none before. -/
theorem leave (hlocks : LocksMatch (before ++ call :: after) m) (hnone : call.stage.reference? = none) :
    EntryServes (before ++ ⟨call.version, stage⟩ :: after) (m.forgetLock call.version)
      call.version := by
  intro number hentry
  rw [Memory.lockOf?_forgetLock] at hentry
  split at hentry
  · cases hentry
  · next hstays =>
    -- the entry stays since its lock is referred to
    have hlock := List.getElem?_eq_getElem (hlocks.bound call.version number hentry)
    have hclones := hlocks.clones number _ hlock
    have hpos : 0 < references number (before ++ call :: after) := by
      refine Nat.pos_of_ne_zero ?_
      intro hzero
      exact hstays ⟨rfl, number, hentry, _, hlock, hclones.trans hzero⟩
    obtain ⟨x, hx, href⟩ := references_pos_iff.1 hpos
    have hsame := hlocks.apart _ _ _ (hlocks.entry x hx number href) hentry
    rcases mem_split.1 hx with rfl | hx
    · rw [hnone] at href
      cases href
    · exact ⟨x, mem_split.2 (.inr hx), hsame, .inl href⟩

/-- An entry serves on, unless a call about its version is given up. -/
theorem transition (h : EntryServes (before ++ call :: after) s.memory version)
    (hlocks : LocksMatch (before ++ call :: after) s.memory)
    (ht : Transition c call.version move call.stage s stage s') :
    EntryServes (before ++ ⟨call.version, stage⟩ :: after) s'.memory version ∨
      move.isAbandonment = true ∧ call.version = version ∧ call.stage.isWaiting = true := by
  by_cases hne : version = call.version
  case neg => exact .inl (h.keep (fun heq => absurd heq.symm hne) (ht.lockOf?_of_ne hne))
  subst hne
  obtain ⟨version, old⟩ := call
  dsimp only at ht h ⊢
  cases ht with
  | take taken => exact .inl (take taken rfl)
  | drop => exact .inl (h.keep (fun _ _ _ => .inr rfl) rfl)
  | leave => exact .inl (leave hlocks rfl)
  | giveUpWaiting givenUp => exact .inr ⟨givenUp, rfl, rfl⟩
  | giveUpHolding givenUp fetching =>
    refine .inr ⟨givenUp, rfl, ?_⟩
    cases old <;> simp_all [Stage.isFetching, Stage.isWaiting, Stage.isOnDisk]
  | fail _ held =>
    refine .inl (h.keep ?_ rfl)
    cases old <;> simp_all [Stage.held?, Stage.reference?, Stage.isLeaving]
  | _ => exact .inl (h.keep (by simp [Stage.reference?, Stage.isLeaving]) rfl)

/-- In a move of a crowd too. -/
theorem play (h : EntryServes crowd.calls crowd.shared.memory version)
    (hlocks : LocksMatch crowd.calls crowd.shared.memory) :
    EntryServes (crowd.play c move).calls (crowd.play c move).shared.memory version ∨
      ∃ number call, move = .abandon number ∧ crowd.calls[number]? = some call ∧
        call.version = version ∧ call.stage.isWaiting = true := by
  rcases crowd.play_cases c move with ⟨version, -, hplay⟩ | hplay |
    ⟨before, call, after, stage, s, hcalls, hmove, hplay, ht⟩
  · rw [hplay]
    refine .inl ?_
    intro number hentry
    obtain ⟨x, hx, hx'⟩ := h number hentry
    exact ⟨x, List.mem_append_left _ hx, hx'⟩
  · rw [hplay]
    exact .inl h
  · rw [hplay]
    rw [hcalls] at h hlocks
    refine (h.transition hlocks ht).imp_right ?_
    rintro ⟨hgivenUp, hversion, hwaiting⟩
    refine ⟨before.length, call, ?_, by simp [hcalls], hversion, hwaiting⟩
    cases move with
    | abandon number => rw [Option.some.inj hmove]
    | _ => cases hgivenUp

end EntryServes

/-- In a run in which no call is given up every entry is at any time for calls on the way. -/
theorem EntriesServe.run {moves : List Move} (disk : Disk)
    (hstay : ∀ move ∈ moves, move.isAbandonment = false) :
    EntriesServe ((Crowd.start disk).run c moves).calls
      ((Crowd.start disk).run c moves).shared.memory := by
  intro version
  induction moves using List.reverseRecOn with
  | nil =>
    intro number hentry
    simp [Crowd.run, Crowd.start, Memory.empty, Memory.lockOf?, Dictionary.get?] at hentry
  | append_singleton moves move ih =>
    rw [Crowd.run_concat]
    have hbefore := ih fun move hmove => hstay move (List.mem_append_left _ hmove)
    refine (hbefore.play (.run disk moves)).resolve_right ?_
    rintro ⟨number, -, rfl, -⟩
    cases hstay (.abandon number) (by simp)

/-! ## The protocol -/

/-- How the calls of a crowd use the lock table. -/
structure LockProtocol (crowd : Crowd) : Prop where
  /-- A call that waits for a lock or holds one does so with the lock that the table has for its
  version. -/
  listed : ∀ call ∈ crowd.calls, ∀ number, call.stage.reference? = some number →
    crowd.shared.memory.lockOf? call.version = some number
  /-- Calls about one version share their lock. -/
  shared : ∀ x ∈ crowd.calls, ∀ y ∈ crowd.calls, x.version = y.version →
    ∀ k l, x.stage.reference? = some k → y.stage.reference? = some l → k = l
  /-- At most one call about a version holds a lock. -/
  alone : ∀ (i j : Nat) (x y : Call), crowd.calls[i]? = some x → crowd.calls[j]? = some y →
    x.version = y.version → x.stage.held?.isSome → y.stage.held?.isSome → i = j
  /-- When all calls about a version have ended there is no lock for it. -/
  cleared : ∀ version,
    (∀ call ∈ crowd.calls, call.version = version → call.stage.result?.isSome) →
    crowd.shared.memory.lockOf? version = none

/-- As long as no call is given up, the calls keep to the protocol of the lock table. -/
theorem lockProtocol_of_uncancelled {moves : List Move} (disk : Disk)
    (hstay : ∀ move ∈ moves, move.isAbandonment = false) :
    LockProtocol ((Crowd.start disk).run c moves) := by
  have hlocks := @LocksMatch.run c disk moves
  have hserve := @EntriesServe.run c moves disk hstay
  generalize (Crowd.start disk).run c moves = crowd at hlocks hserve
  refine ⟨hlocks.entry, ?_, ?_, ?_⟩
  · intro x hx y hy hversion k l hk hl
    have hxEntry := hlocks.entry x hx k hk
    have hyEntry := hlocks.entry y hy l hl
    rw [hversion, hyEntry] at hxEntry
    exact (Option.some.inj hxEntry).symm
  · intro i j x y hi hj hversion hx hy
    obtain ⟨k, hk⟩ := Option.isSome_iff_exists.1 hx
    obtain ⟨l, hl⟩ := Option.isSome_iff_exists.1 hy
    exact hlocks.holder_unique hi hj hversion.symm hk hl
  · intro version hended
    cases hentry : crowd.shared.memory.lockOf? version with
    | none => rfl
    | some number =>
      obtain ⟨call, hcall, hversion, huse⟩ := hserve version number hentry
      have hresult := hended call hcall hversion
      -- a call that has ended neither refers to a lock nor is about to remove one
      cases hstage : call.stage <;>
        simp_all [Stage.result?, Stage.reference?, Stage.isLeaving]

/-- The first call fails and takes its lock out of the table. The next two share a new one, which only
one of them holds. -/
theorem lockProtocol_of_uncancelled_again :
    let c : Cache := ⟨"/cache", "http://host/"⟩
    let moves : List Move :=
      [.arrive "v1"] ++ List.replicate 4 (.advance 0 none) ++ [.advance 0 (some ⟨.busy, none⟩)] ++
        List.replicate 3 (.advance 0 none) ++ [.arrive "v1", .arrive "v1"] ++
        List.replicate 3 (.advance 1 none) ++ List.replicate 2 (.advance 2 none)
    let crowd := (Crowd.start ⟨[], []⟩).run c moves
    (∀ move ∈ moves, move.isAbandonment = false) ∧
      crowd.calls.map (·.stage.reference?) = [none, some 1, some 1] ∧
      crowd.shared.memory.lockOf? "v1" = some 1 := by
  intro c moves crowd
  have hstay : ∀ move ∈ moves, move.isAbandonment = false := by decide
  have hreferences : crowd.calls.map (·.stage.reference?) = [none, some 1, some 1] := by
    decide +kernel
  have hversions : crowd.calls.map (·.version) = ["v1", "v1", "v1"] := by decide +kernel
  have hprotocol : LockProtocol crowd := lockProtocol_of_uncancelled ⟨[], []⟩ hstay
  refine ⟨hstay, hreferences, ?_⟩
  -- what the run did is told by now
  clear_value crowd
  have hmem : some 1 ∈ crowd.calls.map (·.stage.reference?) := by
    rw [hreferences]
    simp
  obtain ⟨call, hcall, href⟩ := List.mem_map.1 hmem
  have hversion : call.version = "v1" := by
    have hmap := List.mem_map_of_mem (f := fun call : Call => call.version) hcall
    rw [hversions] at hmap
    simpa using hmap
  rw [← hversion]
  exact hprotocol.listed call hcall 1 href

end Provenance.Cache
