import Provenance.Proofs.Cache.Provision
import Provenance.Proofs.Cache.Renumbering

/-!
# Sessions of the cache are calls

A session that makes sure of a compiler is a call that nobody disturbs: each of its steps is a move of the call
(`Crowd.exists_move_advance`). Sessions side by side are calls that move in turn. So what sessions leave, one
after another, is what calls may have left (`Cache.IsReached.ensure`), and what is shown of all crowds holds of it.
-/

namespace Provenance.Cache

variable {ν ε : Type} {o : Outside ν} {c : Cache} {version : String} {w : World ν} {crowd : Crowd} {i : Nat}
  {stage : Stage} {s : Shared}

/-- What calls about any versions have made of a disk, wherever they are. -/
def IsReached (c : Cache) (s : Shared) : Prop :=
  ∃ disk moves, ((Crowd.start disk).run c moves).shared = s

namespace Crowd

variable {calls : List Call} {stages : List Stage}

/-! ## Moves of a session -/

theorem calls_moveTo_split {x : Call} {after : List Call} (hcalls : crowd.calls = calls ++ x :: after) :
    (crowd.moveTo calls.length stage s).calls = calls ++ { x with stage } :: after := by
  simp [moveTo, hcalls, List.modify_eq_take_drop]

/-- Going on from a stage is a move of the call that is there. -/
theorem exists_move_advance (hcall : crowd.calls[i]? = some ⟨version, stage⟩) (hshared : crowd.shared = w.shared) :
    ∃ move stage' w', (c.advance version stage : Session ν ε Stage) o w = (.ok stage', w') ∧
      crowd.play c move = crowd.moveTo i stage' w'.shared := by
  cases hrequesting : stage.address? with
  | some address =>
    obtain ⟨lock, rfl⟩ := Stage.address?_eq_some_iff.1 hrequesting
    obtain ⟨exchanges, reply, outside', -, hdownload⟩ := @download_sent ν ε o version address w
    refine ⟨.reply i reply, receive version reply (.requesting lock address),
      { w with outside := outside', effects := w.effects ++ [.download version] }, ?_, ?_⟩
    · rw [advance, Session.bind_of_ok hdownload]
      rfl
    · rw [play_eq rfl hcall, hshared]
      rfl
  | none =>
    obtain ⟨mishap, w', hstep, hnext, -⟩ := @stepAloud_apply ν ε o c version stage w
    rw [← advance_of_address?_eq_none hrequesting] at hstep
    refine ⟨.advance i mishap, _, w', hstep, ?_⟩
    rw [play_eq rfl hcall, hnext, hshared]
    rfl

/-- Going on for some steps is a run of moves of the call. -/
theorem exists_moves_drive (steps : Nat) (hcalls : crowd.calls = calls ++ [⟨version, stage⟩])
    (hshared : crowd.shared = w.shared) :
    ∃ moves stage' w', (c.drive version steps stage : Session ν ε Stage) o w = (.ok stage', w') ∧
      crowd.run c moves = ⟨calls ++ [⟨version, stage'⟩], w'.shared⟩ := by
  induction steps generalizing crowd stage w with
  | zero => exact ⟨[], stage, w, rfl, by rw [← hcalls, ← hshared]; rfl⟩
  | succ steps ih =>
    have hcall : crowd.calls[calls.length]? = some ⟨version, stage⟩ := by
      rw [hcalls, List.getElem?_concat_length]
    obtain ⟨move, stage₁, w₁, hadvance, hplay⟩ := exists_move_advance (ε := ε) (o := o) (c := c) hcall hshared
    have hcalls₁ : (crowd.play c move).calls = calls ++ [⟨version, stage₁⟩] := by
      rw [hplay, calls_moveTo_split hcalls]
    obtain ⟨moves, stage', w', hdrive, hrun⟩ := ih hcalls₁ (by rw [hplay]; rfl)
    refine ⟨move :: moves, stage', w', ?_, hrun⟩
    rw [drive, Session.bind_of_ok hadvance]
    exact hdrive

/-- A session is a call that arrives and makes all its moves at once, and its result is that of the call. -/
theorem exists_moves_ensure (hshared : crowd.shared = w.shared) :
    ∃ moves stage, crowd.run c (.arrive version :: moves)
        = ⟨crowd.calls ++ [⟨version, stage⟩], (c.ensure version o w).2.shared⟩ ∧
      (c.ensure version o w).1 = stage.result?.getD (.error (.cache (c.path version) .busy)) := by
  obtain ⟨moves, stage, w', hdrive, hrun⟩ :=
    @exists_moves_drive ν CompilerError o c version w (crowd.play c (.arrive version)) .starting crowd.calls
      maxSteps rfl hshared
  have hensure : c.ensure version o w = (stage.result?.getD (.error (.cache (c.path version) .busy)), w') := by
    rw [ensure, Session.bind_of_ok hdrive]
    cases stage.result? <;> rfl
  rw [hensure]
  exact ⟨moves, stage, hrun, rfl⟩

/-! ## Sessions side by side -/

/-- Each of some calls goes on once. -/
theorem exists_moves_advanceAll (hcalls : crowd.calls = calls ++ stages.map (Call.mk version))
    (hshared : crowd.shared = w.shared) :
    ∃ moves stages' w', stages.mapM (c.advance version : Stage → Session ν ε Stage) o w = (.ok stages', w') ∧
      crowd.run c moves = ⟨calls ++ stages'.map (Call.mk version), w'.shared⟩ := by
  induction stages generalizing crowd calls w with
  | nil => exact ⟨[], [], w, rfl, by rw [← hcalls, ← hshared]; rfl⟩
  | cons stage stages ih =>
    have hcall : crowd.calls[calls.length]? = some ⟨version, stage⟩ := by
      simp [hcalls]
    obtain ⟨move, stage₁, w₁, hadvance, hplay⟩ := exists_move_advance (ε := ε) (o := o) (c := c) hcall hshared
    -- the call that went on joins those before the others
    have hcalls₁ : (crowd.play c move).calls = (calls ++ [⟨version, stage₁⟩]) ++ stages.map (Call.mk version) := by
      rw [hplay, calls_moveTo_split hcalls, ← List.append_cons]
    obtain ⟨moves, stages', w', hall, hrun⟩ := ih hcalls₁ (by rw [hplay]; rfl)
    refine ⟨move :: moves, stage₁ :: stages', w', ?_, ?_⟩
    · rw [List.mapM_cons, Session.bind_of_ok hadvance, Session.bind_of_ok hall]
      rfl
    · rw [List.map_cons, List.append_cons]
      exact hrun

/-- All of some calls go on for some rounds. -/
theorem exists_moves_driveAll (rounds : Nat) (hcalls : crowd.calls = calls ++ stages.map (Call.mk version))
    (hshared : crowd.shared = w.shared) :
    ∃ moves stages' w', (c.driveAll version rounds stages : Session ν ε _) o w = (.ok stages', w') ∧
      crowd.run c moves = ⟨calls ++ stages'.map (Call.mk version), w'.shared⟩ := by
  induction rounds generalizing crowd stages w with
  | zero => exact ⟨[], stages, w, rfl, by rw [← hcalls, ← hshared]; rfl⟩
  | succ rounds ih =>
    obtain ⟨moves, stages₁, w₁, hall, hrun⟩ := exists_moves_advanceAll (ε := ε) (o := o) (c := c) hcalls hshared
    have hcalls₁ : (crowd.run c moves).calls = calls ++ stages₁.map (Call.mk version) := by rw [hrun]
    obtain ⟨more, stages', w', hdrive, hrun'⟩ := ih hcalls₁ (by rw [hrun])
    refine ⟨moves ++ more, stages', w', ?_, ?_⟩
    · rw [driveAll, Session.bind_of_ok hall]
      exact hdrive
    · rw [run_append]
      exact hrun'

/-- Some calls about one version arrive. -/
theorem run_replicate_arrive (c : Cache) (crowd : Crowd) (version : String) (count : Nat) :
    crowd.run c (List.replicate count (.arrive version))
      = ⟨crowd.calls ++ (List.replicate count .starting).map (Call.mk version), crowd.shared⟩ := by
  induction count generalizing crowd with
  | zero => simp [run]
  | succ count ih =>
    show (crowd.play c (.arrive version)).run c (List.replicate count (.arrive version)) = _
    rw [ih]
    simp [play, List.replicate_succ]

/-- Sessions side by side are as many calls that arrive and move in turn. -/
theorem exists_moves_ensureMany (count : Nat) (hshared : crowd.shared = w.shared) :
    ∃ (moves : List Move) (stages : List Stage) (w' : World ν), (c.ensureMany version count : Session ν ε _) o w
        = (.ok (stages.map fun stage => stage.result?.getD (.error (.cache (c.path version) .busy))), w') ∧
      crowd.run c moves = ⟨crowd.calls ++ stages.map (Call.mk version), w'.shared⟩ := by
  have harrive := run_replicate_arrive c crowd version count
  obtain ⟨moves, stages, w', hdrive, hrun⟩ :=
    @exists_moves_driveAll ν ε o c version w (crowd.run c (List.replicate count (.arrive version))) crowd.calls
      (List.replicate count .starting) (maxSteps * (count + 1)) (by rw [harrive]) (by rw [harrive]; exact hshared)
  refine ⟨List.replicate count (.arrive version) ++ moves, stages, w', ?_, ?_⟩
  · rw [ensureMany, Session.bind_of_ok hdrive]
    rfl
  · rw [run_append]
    exact hrun

end Crowd

/-! ## What sessions leave -/

/-- What a session finds may have been left by calls, and so may what it leaves. -/
theorem IsReached.ensure (h : c.IsReached w.shared) (version : String) :
    c.IsReached (c.ensure version o w).2.shared := by
  obtain ⟨disk, moves, hshared⟩ := h
  obtain ⟨more, stage, hrun, -⟩ :=
    @Crowd.exists_moves_ensure ν o c version w ((Crowd.start disk).run c moves) hshared
  refine ⟨disk, moves ++ .arrive version :: more, ?_⟩
  rw [Crowd.run_append, hrun]

theorem IsReached.ensureMany (h : c.IsReached w.shared) (version : String) (count : Nat) :
    c.IsReached ((c.ensureMany version count : Session ν ε _) o w).2.shared := by
  obtain ⟨disk, moves, hshared⟩ := h
  obtain ⟨more, stages, w', hmany, hrun⟩ :=
    @Crowd.exists_moves_ensureMany ν ε o c version w ((Crowd.start disk).run c moves) count hshared
  refine ⟨disk, moves ++ more, ?_⟩
  rw [hmany, Crowd.run_append, hrun]

end Provenance.Cache
