import Provenance.Proofs.Cache.Locks

/-!
# Calls that are given up

A call that is given up lets go of its lock, but it does not come to remove the lock from the table. The
entry then stays until some other call about the version comes to its end. So an entry is left when
nobody is under way exactly if the last that was heard of its version was that a call was given up
(`LastGivenUp`).
-/

namespace Provenance.Cache

variable {c : Cache} {version : String} {move : Move} {stage stage' : Stage} {s s' : Shared}
  {m : Memory} {number : Nat} {crowd : Crowd} {disk : Disk} {moves : List Move}

/-- Whether a call has ended or was given up. -/
def Stage.isOver : Stage → Bool
  | .done _ | .abandoned => true
  | _ => false

namespace Crowd

/-- A move gives up a call about a version that waits for its lock or holds it. -/
def GivesUp (crowd : Crowd) (version : String) (move : Move) : Prop :=
  ∃ number call, move = .abandon number ∧ crowd.calls[number]? = some call ∧
    call.version = version ∧ call.stage.isWaiting = true

/-- With a move a call about a version comes to its end, where it removes the entry of the version if
nothing refers to the lock. -/
def CleansUp (crowd : Crowd) (version : String) (move : Move) : Prop :=
  ∃ number mishap call, move = .advance number mishap ∧ crowd.calls[number]? = some call ∧
    call.version = version ∧ call.stage.isLeaving = true

end Crowd

/-- In a run from a new cache a call about a version was given up, and since then no call about it came
to its end. -/
inductive LastGivenUp (c : Cache) (disk : Disk) (version : String) : List Move → Prop
  | givenUp {moves : List Move} {move : Move}
    (gives : ((Crowd.start disk).run c moves).GivesUp version move) :
    LastGivenUp c disk version (moves ++ [move])
  | since {moves : List Move} {move : Move} (before : LastGivenUp c disk version moves)
    (stays : ¬ ((Crowd.start disk).run c moves).CleansUp version move) :
    LastGivenUp c disk version (moves ++ [move])

/-! ## What is left stays -/

/-- Only a call that comes to its end removes the entry of its version. -/
theorem Transition.lockOf?_of_some {other : String}
    (ht : Transition c version move stage s stage' s')
    (hstays : other = version → stage.isLeaving = false)
    (hentry : s.memory.lockOf? other = some number) : s'.memory.lockOf? other = some number := by
  by_cases hne : other = version
  case neg => rwa [ht.lockOf?_of_ne hne]
  subst hne
  cases ht with
  | take taken =>
    rw [Memory.takeLock_of_some hentry, Prod.mk.injEq] at taken
    obtain ⟨-, rfl⟩ := taken
    exact hentry
  | leave => cases hstays rfl
  | _ => exact hentry

@[simp] theorem lockOf?_abandon : (abandon stage m).2.lockOf? version = m.lockOf? version := by
  cases stage <;> rfl

theorem Crowd.lockOf?_play_of_some (hstays : ¬ crowd.CleansUp version move)
    (hentry : crowd.shared.memory.lockOf? version = some number) :
    (crowd.play c move).shared.memory.lockOf? version = some number := by
  cases move with
  | arrive _ => exact hentry
  | advance i mishap =>
    cases hcall : crowd.calls[i]? with
    | none => simpa [play, hcall] using hentry
    | some call =>
      have ht : Transition c call.version (.advance i mishap) call.stage crowd.shared _ _ :=
        transition_step mishap call.stage crowd.shared
      have hnotLeaving : version = call.version → call.stage.isLeaving = false := by
        intro hversion
        rw [← Bool.not_eq_true]
        intro hleaving
        exact hstays ⟨i, mishap, call, rfl, hcall, hversion.symm, hleaving⟩
      simpa [play, hcall, moveTo] using ht.lockOf?_of_some hnotLeaving hentry
  | reply i _ => cases hcall : crowd.calls[i]? <;> simpa [play, hcall, moveTo] using hentry
  | abandon i => cases hcall : crowd.calls[i]? <;> simpa [play, hcall, moveTo] using hentry

/-- A call that is given up refers to a lock. -/
theorem Crowd.GivesUp.exists_lockOf? (h : crowd.GivesUp version move)
    (hlocks : LocksMatch crowd.calls crowd.shared.memory) :
    ∃ number, crowd.shared.memory.lockOf? version = some number := by
  obtain ⟨i, call, -, hcall, rfl, hwaiting⟩ := h
  have href : ∃ number, call.stage.reference? = some number := by
    cases hstage : call.stage <;>
      simp_all [Stage.isWaiting, Stage.isOnDisk, Stage.reference?]
  obtain ⟨number, hnumber⟩ := href
  exact ⟨number, hlocks.entry call (List.mem_of_getElem? hcall) number hnumber⟩

theorem Crowd.GivesUp.not_cleansUp (h : crowd.GivesUp version move) :
    ¬ crowd.CleansUp version move := by
  obtain ⟨i, call, rfl, -⟩ := h
  rintro ⟨j, mishap, other, hmove, -⟩
  cases hmove

/-- What a call that was given up left is there as long as no call comes to its end. -/
theorem LastGivenUp.exists_lockOf? (h : LastGivenUp c disk version moves) :
    ∃ number, ((Crowd.start disk).run c moves).shared.memory.lockOf? version = some number := by
  induction h with
  | @givenUp moves move gives =>
    rw [Crowd.run_concat]
    obtain ⟨number, hnumber⟩ := gives.exists_lockOf? (.run disk moves)
    exact ⟨number, Crowd.lockOf?_play_of_some gives.not_cleansUp hnumber⟩
  | since before stays ih =>
    rw [Crowd.run_concat]
    obtain ⟨number, hnumber⟩ := ih
    exact ⟨number, Crowd.lockOf?_play_of_some stays hnumber⟩

/-! ## Nothing else is left -/

/-- When a call has come to its end an entry of its version serves another call, whatever was given up
before. -/
theorem Crowd.CleansUp.entryServes (h : crowd.CleansUp version move)
    (hlocks : LocksMatch crowd.calls crowd.shared.memory) :
    EntryServes (crowd.play c move).calls (crowd.play c move).shared.memory version := by
  obtain ⟨i, mishap, ⟨version, stage⟩, rfl, hcall, rfl, hleaving⟩ := h
  obtain ⟨before, after, hcalls, rfl⟩ := exists_split hcall
  cases stage with
  | leaving result =>
    have hplay : crowd.play c (.advance before.length mishap)
        = ⟨before ++ ⟨version, .done result⟩ :: after,
            { crowd.shared with memory := crowd.shared.memory.forgetLock version }⟩ := by
      simp [play, hcalls, step, moveTo, List.modify_eq_take_drop]
    rw [hcalls] at hlocks
    rw [hplay]
    exact EntryServes.leave hlocks rfl
  | _ => cases hleaving

/-- At any time of a run the entry of a version is for calls on the way, or was left by a call that was
given up. -/
theorem entryServes_or_lastGivenUp (disk : Disk) (moves : List Move) (version : String) :
    EntryServes ((Crowd.start disk).run c moves).calls
        ((Crowd.start disk).run c moves).shared.memory version ∨
      LastGivenUp c disk version moves := by
  induction moves using List.reverseRecOn with
  | nil =>
    refine .inl ?_
    intro number hentry
    simp [Crowd.run, Crowd.start, Memory.empty, Memory.lockOf?, Dictionary.get?] at hentry
  | append_singleton moves move ih =>
    rw [Crowd.run_concat]
    -- who cleans up makes good what was left before
    by_cases hclean : ((Crowd.start disk).run c moves).CleansUp version move
    · exact .inl (hclean.entryServes (.run disk moves))
    · rcases ih with hserves | hbefore
      · exact (hserves.play (.run disk moves)).imp_right .givenUp
      · exact .inr (.since hbefore hclean)

/-- When all calls about a version are over, the table has no lock for it, unless one of them was given
up and none came to its end since. -/
theorem unlocked_iff_of_isOver
    (hover : ∀ call ∈ ((Crowd.start disk).run c moves).calls, call.version = version →
      call.stage.isOver = true) :
    ((Crowd.start disk).run c moves).shared.memory.lockOf? version = none ↔
      ¬ LastGivenUp c disk version moves := by
  constructor
  · intro hnone hlast
    obtain ⟨number, hnumber⟩ := hlast.exists_lockOf?
    rw [hnone] at hnumber
    cases hnumber
  · intro hnot
    have hserves := (entryServes_or_lastGivenUp disk moves version).resolve_right hnot
    rw [Option.eq_none_iff_forall_ne_some]
    intro number hentry
    obtain ⟨call, hcall, hversion, huse⟩ := hserves number hentry
    have hcallOver := hover call hcall hversion
    -- a call that is over neither refers to a lock nor is about to remove one
    cases hstage : call.stage <;>
      simp_all [Stage.isOver, Stage.reference?, Stage.isLeaving]

/-- The first call is given up while it downloads. The second one fails and takes away what was left. -/
theorem unlocked_iff_of_isOver_again :
    let c : Cache := ⟨"/cache", "http://host/"⟩
    let moves : List Move :=
      [.arrive "v1"] ++ List.replicate 5 (.advance 0 none) ++ [.abandon 0, .arrive "v1"] ++
        List.replicate 4 (.advance 1 none) ++ [.advance 1 (some ⟨.busy, none⟩)] ++
        List.replicate 3 (.advance 1 none)
    (∀ call ∈ ((Crowd.start ⟨[], []⟩).run c moves).calls, call.version = "v1" →
        call.stage.isOver = true) ∧
      ¬ LastGivenUp c ⟨[], []⟩ "v1" moves := by
  intro c moves
  have hover : ∀ call ∈ ((Crowd.start ⟨[], []⟩).run c moves).calls, call.version = "v1" →
      call.stage.isOver = true := by
    decide +kernel
  have hnone : ((Crowd.start ⟨[], []⟩).run c moves).shared.memory.lockOf? "v1" = none := by
    decide +kernel
  exact ⟨hover, (unlocked_iff_of_isOver hover).1 hnone⟩

/-- The only call is given up while it downloads, and its lock stays in the table. -/
theorem locked_after_given_up :
    let c : Cache := ⟨"/cache", "http://host/"⟩
    let moves : List Move :=
      [.arrive "v1"] ++ List.replicate 5 (.advance 0 none) ++ [.abandon 0]
    let crowd := (Crowd.start ⟨[], []⟩).run c moves
    (∀ call ∈ crowd.calls, call.version = "v1" → call.stage.isOver = true) ∧
      crowd.shared.memory.lockOf? "v1" = some 0 := by
  decide +kernel

end Provenance.Cache
