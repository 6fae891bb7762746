import Mathlib.Logic.Equiv.Basic
import Provenance.Proofs.Cache.Footprint

/-!
# Numbers of locks never show

Locks are numbered in the order in which they are made. Crowds that differ in nothing else (`Crowd.Alike`)
stay so whatever happens next, so that nobody ever learns how a lock is numbered.
-/

namespace Provenance.Cache

variable {c : Cache} {crowd crowd' : Crowd} {move : Move} {x : Call} {i k : Nat} {stage : Stage}
  {s : Shared} {σ : Equiv.Perm Nat}

namespace Crowd

/-! ## Moves of a call -/

/-- The call that a move is about. -/
def mover? (crowd : Crowd) (move : Move) : Option Call := move.call?.bind fun i => crowd.calls[i]?

theorem mover?_eq_some_iff :
    crowd.mover? move = some x ↔ ∃ i, move.call? = some i ∧ crowd.calls[i]? = some x := by
  simp [mover?, Option.bind_eq_some_iff]

theorem getElem?_moveTo : (crowd.moveTo i stage s).calls[k]?
    = if k = i then (crowd.calls[k]?).map fun call => { call with stage } else crowd.calls[k]? := by
  rw [moveTo, List.getElem?_modify]
  by_cases h : k = i
  · simp [h]
  · simp [h, Ne.symm h]

/-- A move brings its call to another stage and leaves the other calls. -/
theorem play_eq (hmove : move.call? = some i) (hcall : crowd.calls[i]? = some x) :
    crowd.play c move
      = crowd.moveTo i (move.act c x crowd.shared).1 (move.act c x crowd.shared).2 := by
  cases move with
  | arrive _ => cases hmove
  | advance number mishap =>
    obtain rfl := Option.some.inj hmove
    simp [play, hcall, Move.act]
  | reply number result =>
    obtain rfl := Option.some.inj hmove
    simp [play, hcall, Move.act]
  | abandon number =>
    obtain rfl := Option.some.inj hmove
    simp [play, hcall, Move.act]

theorem play_of_none (hmove : move.call? = some i) (hnone : crowd.calls[i]? = none) :
    crowd.play c move = crowd := by
  cases move with
  | arrive _ => cases hmove
  | advance number mishap =>
    obtain rfl := Option.some.inj hmove
    simp [play, hnone]
  | reply number result =>
    obtain rfl := Option.some.inj hmove
    simp [play, hnone]
  | abandon number =>
    obtain rfl := Option.some.inj hmove
    simp [play, hnone]

/-! ## The same crowd -/

/-- Two crowds are the same when the locks of the first are renumbered: the calls are at the same stages,
the memory tells the same of every version, and the disks are the same. -/
structure Alike (σ : Equiv.Perm Nat) (crowd crowd' : Crowd) : Prop where
  calls : crowd'.calls = crowd.calls.map (Call.renumber σ)
  memory : ∀ version, Memory.SameFor σ version crowd.shared.memory crowd'.shared.memory
  current : crowd'.shared.disk.current = crowd.shared.disk.current
  get? : ∀ place, crowd'.shared.disk.get? place = crowd.shared.disk.get? place

/-- What holds at any time of the locks and of what calls rely on. -/
structure Sound (c : Cache) (crowd : Crowd) : Prop where
  locks : LocksMatch crowd.calls crowd.shared.memory
  fits : ∀ call ∈ crowd.calls, call.Fits c crowd.shared

theorem sound_run (disk : Disk) (moves : List Move) : ((start disk).run c moves).Sound c := by
  have hlocks := @LocksMatch.run c disk moves
  refine ⟨hlocks, fun call hcall => ⟨?_, ?_, ?_⟩⟩
  · exact (Knowledge.run disk moves).safe call hcall
  · exact hlocks.entry call hcall
  · intro hwritten
    obtain ⟨place, mode, content, hfile, -⟩ := (Files.run c disk moves).written call hcall hwritten
    exact ⟨place, mode, content, hfile⟩

/-- For a call only the numbers of locks in the table matter. -/
theorem Sound.renumber_congr (h : crowd.Sound c) (hx : x ∈ crowd.calls) {σ τ : Nat → Nat}
    (hτ : ∀ version number, crowd.shared.memory.lockOf? version = some number →
      τ number = σ number) : x.renumber τ = x.renumber σ := by
  refine congrArg (Call.mk x.version) (Stage.renumber_congr fun number hnumber => ?_)
  exact hτ x.version number (h.locks.entry x hx number hnumber)

theorem Sound.renumber_eq_self (h : crowd.Sound c) (hx : x ∈ crowd.calls) {σ : Nat → Nat}
    (hσ : ∀ version number, crowd.shared.memory.lockOf? version = some number → σ number = number) :
    x.renumber σ = x :=
  (h.renumber_congr hx hσ).trans x.renumber_id

/-! ## Numbers never show -/

namespace Alike

theorem sameFor (h : Alike σ crowd crowd') (version : String) :
    Shared.SameFor c σ version crowd.shared crowd'.shared :=
  ⟨h.memory version, fun _ _ => Disk.locate_congr h.current h.get?, fun place _ => h.get? place⟩

/-- A renumbering by which a lock that is about to be made gets its number, too. -/
theorem exists_extension (h : Alike σ crowd crowd') (hlocks : LocksMatch crowd.calls crowd.shared.memory)
    (hlocks' : LocksMatch crowd'.calls crowd'.shared.memory) :
    ∃ τ : Equiv.Perm Nat,
      (∀ version number, crowd.shared.memory.lockOf? version = some number → τ number = σ number) ∧
        τ crowd.shared.memory.locks.length = crowd'.shared.memory.locks.length := by
  refine ⟨σ.trans (Equiv.swap (σ crowd.shared.memory.locks.length) crowd'.shared.memory.locks.length),
    ?_, ?_⟩
  · intro version number hnumber
    have hlt := hlocks.bound version number hnumber
    have hnumber' : crowd'.shared.memory.lockOf? version = some (σ number) := by
      rw [(h.memory version).table, hnumber]
      rfl
    have hlt' := hlocks'.bound version _ hnumber'
    refine Equiv.swap_apply_of_ne_of_ne ?_ (Nat.ne_of_lt hlt')
    exact fun heq => Nat.ne_of_lt hlt (σ.injective heq)
  · exact Equiv.swap_apply_left _ _

/-- A move of a call keeps crowds alike. -/
theorem moveTo (h : Alike σ crowd crowd') (hsound : crowd.Sound c) (hsound' : crowd'.Sound c)
    (hmove : move.call? = some i) (hx : crowd.calls[i]? = some x) :
    ∃ τ, Alike τ (crowd.play c move) (crowd'.play c move) := by
  obtain ⟨τ, hτ, hnew⟩ := h.exists_extension hsound.locks hsound'.locks
  have hxMem := List.mem_of_getElem? hx
  have hx' : crowd'.calls[i]? = some (x.renumber τ) := by
    rw [h.calls, List.getElem?_map, hx, hsound.renumber_congr hxMem hτ]
    rfl
  have hfits := hsound.fits x hxMem
  have hfits' := hsound'.fits _ (List.mem_of_getElem? hx')
  have hsame : ∀ version, Shared.SameFor c τ version crowd.shared crowd'.shared :=
    fun version => (h.sameFor version).renumber (hτ version)
  have hresult : SameResult τ x.version crowd.shared crowd'.shared (move.act c x crowd.shared)
      (move.act c (x.renumber τ) crowd'.shared) := act_congr (hsame x.version) hfits fun _ => hnew
  have hcurrent : (move.act c x crowd.shared).2.disk.current = crowd.shared.disk.current :=
    (transition_act.touches hfits).directories.current
  have hcurrent' : (move.act c (x.renumber τ) crowd'.shared).2.disk.current
      = crowd'.shared.disk.current := (transition_act.touches hfits').directories.current
  rw [play_eq hmove hx, play_eq hmove hx']
  refine ⟨τ, ?_, ?_, ?_, ?_⟩
  · refine List.ext_getElem? fun k => ?_
    rw [List.getElem?_map, getElem?_moveTo, getElem?_moveTo]
    by_cases hk : k = i
    · rw [if_pos hk, if_pos hk, hk, hx, hx', hresult.stage]
      rfl
    · rw [if_neg hk, if_neg hk, h.calls, List.getElem?_map]
      refine Option.map_congr fun z hz => ?_
      exact (hsound.renumber_congr (List.mem_of_getElem? hz) hτ).symm
  · intro version
    exact (hfits.act_sameFor hfits' hsound.locks hsound'.locks hsame move (fun _ => hnew) version).memory
  · exact hcurrent'.trans (h.current.trans hcurrent.symm)
  · intro place
    exact hresult.get? place (h.get? place)

/-- Whatever happens next, crowds that are alike stay alike. -/
theorem play (h : Alike σ crowd crowd') (hsound : crowd.Sound c) (hsound' : crowd'.Sound c)
    (move : Move) : ∃ τ, Alike τ (crowd.play c move) (crowd'.play c move) := by
  cases hmove : move.call? with
  | none =>
    cases move with
    | arrive version =>
      refine ⟨σ, ?_, h.memory, h.current, h.get?⟩
      simp [Crowd.play, h.calls, Call.renumber, Stage.renumber]
    | _ => cases hmove
  | some i =>
    cases hx : crowd.calls[i]? with
    | none =>
      have hx' : crowd'.calls[i]? = none := by
        rw [h.calls, List.getElem?_map, hx]
        rfl
      rw [play_of_none hmove hx, play_of_none hmove hx']
      exact ⟨σ, h⟩
    | some x => exact h.moveTo hsound hsound' hmove hx

end Alike

/-- Crowds that are alike stay alike in any run. -/
theorem Alike.run {disk : Disk} {moves moves' : List Move}
    (h : Alike σ ((start disk).run c moves) ((start disk).run c moves')) (more : List Move) :
    ∃ τ, Alike τ ((start disk).run c (moves ++ more)) ((start disk).run c (moves' ++ more)) := by
  induction more generalizing moves moves' σ with
  | nil =>
    rw [List.append_nil, List.append_nil]
    exact ⟨σ, h⟩
  | cons move more ih =>
    obtain ⟨τ, hnext⟩ := h.play (sound_run disk moves) (sound_run disk moves') move
    rw [← run_concat, ← run_concat] at hnext
    rw [List.append_cons, List.append_cons moves']
    exact ih hnext

end Crowd

end Provenance.Cache
