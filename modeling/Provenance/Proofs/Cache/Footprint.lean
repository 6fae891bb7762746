import Provenance.Proofs.Cache.Files
import Provenance.Proofs.Cache.Views

/-!
# What a move looks at and changes

A move of a call looks only at what is shown of its version (`act_congr`) and changes nothing else
(`Call.Fits.sameFor_act`).
-/

namespace Provenance.Cache

variable {c : Cache} {version other : String} {σ : Nat → Nat}

/-! ## What a call relies on -/

/-- What a call on its way relies on. -/
structure Call.Fits (c : Cache) (call : Call) (s : Shared) : Prop where
  /-- Its version is in order. -/
  safe : call.stage.isAdmitted = true → Version.isSafe call.version.toList = true
  /-- Its lock is the one that the table has for its version. -/
  entry : ∀ number, call.stage.reference? = some number →
    s.memory.lockOf? call.version = some number
  /-- What it is about to rename is a file. -/
  written : call.stage.isWritten = true → ∃ place mode content,
    s.disk.find (c.partialPath call.version) = .ok (place, .file mode content)

/-! ## Moves -/

section
variable {move : Move} {stage : Stage} {call : Call} {s s' : Shared}

/-- What a move makes of a call. -/
def Move.act (c : Cache) (call : Call) (s : Shared) : Move → Stage × Shared
  | .arrive _ => (call.stage, s)
  | .advance _ mishap => step c call.version mishap call.stage s
  | .reply _ result => (receive call.version result call.stage, s)
  | .abandon _ =>
    match Cache.abandon call.stage s.memory with
    | (stage, memory) => (stage, { s with memory })

theorem transition_act :
    Transition c call.version move call.stage s (move.act c call s).1 (move.act c call s).2 := by
  cases move with
  | arrive _ => exact .stay
  | advance _ mishap => exact transition_step mishap call.stage s
  | reply _ result => exact transition_receive rfl call.stage s
  | abandon _ => exact transition_abandon rfl call.stage s

/-- A call touches the places of its version. -/
theorem Transition.touches (ht : Transition c call.version move call.stage s stage s')
    (h : call.Fits c s) : c.Touches call.version s.disk s'.disk := by
  obtain ⟨version, old⟩ := call
  dsimp only at ht ⊢
  cases ht with
  | write written => exact .of_write (h.safe rfl) written
  | mark marked => exact .of_setMode (h.safe rfl) marked
  | rename renamed =>
    obtain ⟨place, mode, content, hfile⟩ := h.written rfl
    exact .of_rename (h.safe rfl) renamed hfile
  | failWriting written => exact .of_write (h.safe rfl) written
  | _ => exact .refl c version s.disk

/-- What the memory tells of other versions stays. -/
theorem Transition.sameFor_memory {calls : List Call}
    (ht : Transition c call.version move call.stage s stage s') (h : call.Fits c s)
    (hlocks : LocksMatch calls s.memory) (hne : other ≠ call.version) :
    Memory.SameFor id other s.memory s'.memory := by
  -- a lock to which the call refers is not the other version's
  have hother : ∀ {number : Nat}, call.stage.reference? = some number →
      s.memory.lockOf? other ≠ some number :=
    fun href hentry => hne (hlocks.apart _ _ _ hentry (h.entry _ href))
  obtain ⟨version, old⟩ := call
  dsimp only at ht hne hother
  cases ht with
  | @take _ lock memory taken =>
    have htake := @Memory.SameFor.of_takeLock other version s.memory hne (hlocks.bound other)
      (fun k hk hversion => hne (hlocks.apart _ _ _ hk hversion))
    rwa [taken] at htake
  | hold => exact .of_modifyLock (hother rfl)
  | record => exact .of_install hne
  | letGo => exact .of_modifyLock (hother rfl)
  | drop => exact .of_modifyLock (hother rfl)
  | leave => exact .of_forgetLock hne
  | giveUpWaiting => exact .of_modifyLock (hother rfl)
  | giveUpHolding _ _ held =>
    have hentry := hother (Stage.reference?_of_held? held)
    exact (Memory.SameFor.of_modifyLock hentry).trans (.of_modifyLock hentry)
  | _ => exact .refl other s.memory

/-- Whether a lock is made in a move of a call. -/
def Move.makesLock (call : Call) (m : Memory) : Move → Bool
  | .advance .. =>
    match call.stage with
    | .looking => (m.lockOf? call.version).isNone
    | _ => false
  | _ => false

/-- Only a call that looks for its lock may make one. -/
theorem Transition.length_locks {stage' : Stage} (ht : Transition c version move stage s stage' s')
    (hstage : stage ≠ .looking) : s'.memory.locks.length = s.memory.locks.length := by
  cases ht with
  | take => exact absurd rfl hstage
  | leave => rw [Memory.locks_forgetLock]
  | hold => exact Memory.length_modifyLock
  | letGo => exact Memory.length_modifyLock
  | drop => exact Memory.length_modifyLock
  | giveUpWaiting => exact Memory.length_modifyLock
  | giveUpHolding => exact Memory.length_modifyLock.trans Memory.length_modifyLock
  | _ => rfl

theorem length_locks_act : (move.act c call s).2.memory.locks.length
    = s.memory.locks.length + if move.makesLock call s.memory then 1 else 0 := by
  obtain ⟨version, stage⟩ := call
  cases move with
  | arrive _ => rfl
  | reply _ result => rfl
  | abandon _ => cases stage with
    | looking => rfl
    | _ => exact transition_act.length_locks nofun
  | advance _ mishap => cases stage with
    | looking => cases hlock : s.memory.lockOf? version with
      | some number => simp [Move.act, step, Move.makesLock, Memory.takeLock_of_some hlock, hlock]
      | none => simp [Move.act, step, Move.makesLock, Memory.takeLock_of_none hlock, hlock]
    | _ => exact transition_act.length_locks nofun

theorem Shared.SameFor.makesLock (h : SameFor c id call.version s s') :
    move.makesLock call s'.memory = move.makesLock call s.memory := by
  have htable : (s'.memory.lockOf? call.version).isNone = (s.memory.lockOf? call.version).isNone := by
    rw [h.memory.table, Option.isNone_map]
  simp only [Move.makesLock, htable]

/-! ## The same move from two states -/

/-- What comes of a move from two states is the same: the next stage, what the memory tells of the
version, and what stands wherever the same stood. -/
structure SameResult (σ : Nat → Nat) (version : String) (s s' : Shared) (x x' : Stage × Shared) :
    Prop where
  stage : x'.1 = x.1.renumber σ
  memory : Memory.SameFor σ version x.2.memory x'.2.memory
  get? : ∀ place, s'.disk.get? place = s.disk.get? place →
    x'.2.disk.get? place = x.2.disk.get? place

/-- What is shared stays in both. -/
theorem SameResult.keep (h : Memory.SameFor σ version s.memory s'.memory) (stage : Stage) :
    SameResult σ version s s' (stage, s) (stage.renumber σ, s') :=
  ⟨rfl, h, fun _ hsame => hsame⟩

/-- A step depends on what is shown of the version. -/
theorem step_congr (h : Shared.SameFor c σ version s s') (hfits : Call.Fits c ⟨version, stage⟩ s)
    (hnew : stage = .looking → s.memory.lockOf? version = none →
      σ s.memory.locks.length = s'.memory.locks.length) (mishap : Option Mishap) :
    SameResult σ version s s' (step c version mishap stage s)
      (step c version mishap (stage.renumber σ) s') := by
  have hmemory := h.memory
  have hpath := hmemory.path
  cases stage with
  | starting =>
    simp only [Stage.renumber, step, hpath]
    split
    · exact .keep hmemory _
    · split
      · exact .keep hmemory _
      · exact .keep hmemory _
  | looking =>
    obtain ⟨hlock, htaken⟩ := hmemory.takeLock (hnew rfl)
    exact ⟨congrArg Stage.waiting hlock, htaken, fun _ hsame => hsame⟩
  | waiting lock =>
    have hentry := hfits.entry lock rfl
    simp only [Stage.renumber, step, hmemory.isHeld hentry]
    split
    · exact .keep hmemory _
    · exact ⟨rfl, hmemory.modifyLock hentry _, fun _ hsame => hsame⟩
  | checking lock =>
    simp only [Stage.renumber, step, hpath]
    split
    · exact .keep hmemory _
    · exact .keep hmemory _
  | probing lock =>
    have hexists := (h.files.sameAt_path (hfits.safe rfl)).exists?
    cases mishap with
    | some m => exact .keep hmemory _
    | none =>
      simp only [Stage.renumber, step, Disk.asking, hexists]
      split
      · exact .keep hmemory _
      · exact .keep hmemory _
      · exact .keep hmemory _
  | requesting lock address => exact .keep hmemory _
  | writing lock content =>
    obtain ⟨result, d, e, hd, he, hsame⟩ :=
      ((h.files.sameAt_partialPath (hfits.safe rfl)).writing mishap content).cases
    simp only [Stage.renumber, step, hd, he]
    cases result with
    | ok _ => exact ⟨rfl, hmemory, hsame⟩
    | error fault => exact ⟨rfl, hmemory, hsame⟩
  | marking lock =>
    obtain ⟨result, d, e, hd, he, hsame⟩ :=
      (((h.files.sameAt_partialPath (hfits.safe rfl)).setMode Disk.programMode).changing mishap).cases
    simp only [Stage.renumber, step, hd, he]
    cases result with
    | ok _ => exact ⟨rfl, hmemory, hsame⟩
    | error fault => exact ⟨rfl, hmemory, hsame⟩
  | «renaming» lock =>
    obtain ⟨place, mode, content, hfile⟩ := hfits.written rfl
    obtain ⟨result, d, e, hd, he, hsame⟩ := (((h.files.sameAt_partialPath (hfits.safe rfl)).rename
      (h.files.sameAt_path (hfits.safe rfl)) hfile).changing mishap).cases
    simp only [Stage.renumber, step, hd, he]
    cases result with
    | ok _ => exact ⟨rfl, hmemory, hsame⟩
    | error fault => exact ⟨rfl, hmemory, hsame⟩
  | recording lock isNew => exact ⟨rfl, hmemory.install, fun _ hsame => hsame⟩
  | releasing lock result =>
    exact ⟨rfl, hmemory.modifyLock (hfits.entry lock rfl) _, fun _ hsame => hsame⟩
  | dropping lock result =>
    exact ⟨rfl, hmemory.modifyLock (hfits.entry lock rfl) _, fun _ hsame => hsame⟩
  | leaving result => exact ⟨rfl, hmemory.forgetLock, fun _ hsame => hsame⟩
  | done result => exact .keep hmemory _
  | abandoned => exact .keep hmemory _

/-- Giving up depends on the version's lock. -/
theorem abandon_congr (h : Shared.SameFor c σ version s s') (hfits : Call.Fits c ⟨version, stage⟩ s) :
    (abandon (stage.renumber σ) s'.memory).1 = (abandon stage s.memory).1.renumber σ ∧
      Memory.SameFor σ version (abandon stage s.memory).2
        (abandon (stage.renumber σ) s'.memory).2 := by
  have hdrop : ∀ lock, stage.reference? = some lock →
      Memory.SameFor σ version (s.memory.dropClone lock) (s'.memory.dropClone (σ lock)) :=
    fun lock href => h.memory.modifyLock (hfits.entry lock href) _
  have hletGo : ∀ lock, stage.reference? = some lock →
      Memory.SameFor σ version ((s.memory.letGo lock).dropClone lock)
        ((s'.memory.letGo (σ lock)).dropClone (σ lock)) := by
    intro lock href
    have hentry := hfits.entry lock href
    exact (h.memory.modifyLock hentry _).modifyLock hentry _
  cases stage with
  | waiting lock => exact ⟨rfl, hdrop lock rfl⟩
  | probing lock => exact ⟨rfl, hletGo lock rfl⟩
  | requesting lock address => exact ⟨rfl, hletGo lock rfl⟩
  | writing lock content => exact ⟨rfl, hletGo lock rfl⟩
  | marking lock => exact ⟨rfl, hletGo lock rfl⟩
  | «renaming» lock => exact ⟨rfl, hletGo lock rfl⟩
  | _ => exact ⟨rfl, h.memory⟩

/-- Receiving a reply does not depend on the lock's number. -/
theorem receive_renumber (reply : Except Http.TransferError Http.Reply) (stage : Stage) :
    receive version reply (stage.renumber σ) = (receive version reply stage).renumber σ := by
  cases stage with
  | requesting lock address =>
    simp only [Stage.renumber, receive]
    cases downloaded version reply with
    | ok content => rfl
    | error error => rfl
  | _ => rfl

/-- A move depends on what is shown of the version. If it makes a lock, this has to get its number by the
renumbering. -/
theorem act_congr (h : Shared.SameFor c σ call.version s s') (hfits : call.Fits c s)
    (hnew : move.makesLock call s.memory = true → σ s.memory.locks.length = s'.memory.locks.length) :
    SameResult σ call.version s s' (move.act c call s) (move.act c (call.renumber σ) s') := by
  obtain ⟨version, stage⟩ := call
  cases move with
  | arrive _ => exact .keep h.memory _
  | advance _ mishap =>
    refine step_congr h hfits ?_ mishap
    rintro rfl hnone
    exact hnew (by simp [Move.makesLock, hnone])
  | reply _ result => exact ⟨receive_renumber result stage, h.memory, fun _ hsame => hsame⟩
  | abandon _ =>
    obtain ⟨hstage, hmemory⟩ := abandon_congr h hfits
    exact ⟨hstage, hmemory, fun _ hsame => hsame⟩

namespace Call.Fits

/-- A move of a call leaves what is shown of other versions. -/
theorem sameFor_act {calls : List Call} (h : call.Fits c s) (hlocks : LocksMatch calls s.memory)
    (hne : other ≠ call.version) (move : Move) :
    Shared.SameFor c id other s (move.act c call s).2 :=
  ⟨transition_act.sameFor_memory h hlocks hne, (transition_act.touches h).sameFiles hne⟩

/-- A move of a call does the same wherever the same is shown of its version. If it makes a lock, this has
to get its number by the renumbering. -/
theorem act (h : call.Fits c s) (h' : (call.renumber σ).Fits c s')
    (hsame : Shared.SameFor c σ call.version s s') (move : Move)
    (hnew : move.makesLock call s.memory = true → σ s.memory.locks.length = s'.memory.locks.length) :
    (move.act c (call.renumber σ) s').1 = (move.act c call s).1.renumber σ ∧
      Shared.SameFor c σ call.version (move.act c call s).2 (move.act c (call.renumber σ) s').2 := by
  have hresult := act_congr hsame h hnew
  have htouches : c.Touches call.version s.disk (move.act c call s).2.disk := transition_act.touches h
  have htouches' : c.Touches call.version s'.disk (move.act c (call.renumber σ) s').2.disk :=
    transition_act.touches h'
  refine ⟨hresult.stage, hresult.memory, ?_, ?_⟩
  · exact htouches.names.symm.trans (hsame.files.names.trans htouches'.names)
  · intro place hplace
    exact hresult.get? place (hsame.files.get? place (htouches.names.isPlace_iff.1 hplace))

/-- If the same is shown of all versions, this is so after a move of a call. -/
theorem act_sameFor {calls calls' : List Call} (h : call.Fits c s) (h' : (call.renumber σ).Fits c s')
    (hlocks : LocksMatch calls s.memory) (hlocks' : LocksMatch calls' s'.memory)
    (hsame : ∀ version, Shared.SameFor c σ version s s') (move : Move)
    (hnew : move.makesLock call s.memory = true → σ s.memory.locks.length = s'.memory.locks.length)
    (version : String) :
    Shared.SameFor c σ version (move.act c call s).2 (move.act c (call.renumber σ) s').2 := by
  by_cases hversion : version = call.version
  · subst hversion
    exact (h.act h' (hsame call.version) move hnew).2
  · have hleft : Shared.SameFor c id version s (move.act c call s).2 :=
      h.sameFor_act hlocks hversion move
    have hright : Shared.SameFor c id version s' (move.act c (call.renumber σ) s').2 :=
      h'.sameFor_act hlocks' hversion move
    exact (hleft.symm.trans (hsame version)).trans hright

end Call.Fits

end

end Provenance.Cache
