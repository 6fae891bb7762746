import Provenance.Proofs.Cache.Provision

/-!
# Why there is no compiler

Whatever goes wrong on the way to a compiler, with the version, the files or the download, is an error that
says that the asker was wrong or that the compiler cannot be had. An error stays as it is from the stage at
which it came up to the end of the call, so that this is said of one step and holds of all of them.
-/

namespace Provenance

variable {ν ε : Type} {o : Outside ν} {w : World ν}

/-- An error that comes before a compiler runs: the asker's, or for want of a compiler. -/
def CompilerError.IsEarly (e : CompilerError) : Prop :=
  e.kind = .inputValidation ∨ e.kind = .compilerUnavailable

namespace Cache

variable {c : Cache} {version : String} {stage : Stage} {e : CompilerError}

/-- The error with which a call is about to end, or has ended. -/
def Stage.error? : Stage → Option CompilerError
  | .releasing _ result | .dropping _ result | .leaving result | .done result => errorOf? result
  | _ => none

/-! ## Steps -/

/-- An error that a step brings up is an early one. -/
theorem error?_step {mishap : Option Mishap} {s : Shared}
    (h : (step c version mishap stage s).1.error? = some e) : e.IsEarly ∨ stage.error? = some e := by
  cases stage with
  | starting =>
    unfold step at h
    dsimp only at h
    split at h
    · cases h
      exact .inl (.inl rfl)
    · split at h <;> cases h
  | looking => cases h
  | waiting lock =>
    unfold step at h
    dsimp only at h
    split at h <;> cases h
  | checking lock =>
    unfold step at h
    dsimp only at h
    split at h <;> cases h
  | probing lock | marking lock | «renaming» lock | writing lock content =>
    -- what goes wrong with a file is said with its path
    unfold step at h
    dsimp only at h
    split at h <;> cases h
    exact .inl (.inr rfl)
  | requesting lock address | recording lock isNew | abandoned => cases h
  | releasing lock result | dropping lock result | leaving result | done result => exact .inr h

theorem isEarly_of_downloaded {reply : Except Http.TransferError Http.Reply}
    (h : downloaded version reply = .error e) : e.IsEarly := by
  unfold downloaded at h
  split at h
  · cases h
    exact .inr rfl
  · split at h
    · obtain ⟨fault, -, rfl⟩ := mapError_eq_error_iff.1 h
      exact .inr rfl
    · cases h
      exact .inr rfl

/-- An error that a reply to a download brings up is an early one. -/
theorem error?_receive {reply : Except Http.TransferError Http.Reply}
    (h : (receive version reply stage).error? = some e) : e.IsEarly ∨ stage.error? = some e := by
  unfold receive at h
  split at h
  · split at h
    · cases h
    · next hfailed =>
      cases h
      exact .inl (isEarly_of_downloaded hfailed)
  · exact .inr h

/-! ## Calls -/

/-- A call that goes on brings up no error but an early one. -/
theorem error?_advance (c : Cache) (version : String) (o : Outside ν) (stage : Stage) (w : World ν) :
    ∃ stage' w', (c.advance version stage : Session ν ε Stage) o w = (.ok stage', w') ∧
      ∀ e, stage'.error? = some e → e.IsEarly ∨ stage.error? = some e := by
  unfold advance
  split
  · next lock address =>
    obtain ⟨-, reply, outside', -, hdownload⟩ := @download_sent ν ε o version address w
    rw [Session.bind_of_ok hdownload]
    exact ⟨receive version reply (.requesting lock address), _, rfl, fun e => error?_receive⟩
  · obtain ⟨mishap, w', hstep, -⟩ := @stepAloud_apply ν ε o c version stage w
    exact ⟨_, w', hstep, fun e => error?_step⟩

theorem error?_drive (c : Cache) (version : String) (o : Outside ν) (steps : Nat) (stage : Stage)
    (w : World ν) :
    ∃ stage' w', (c.drive version steps stage : Session ν ε Stage) o w = (.ok stage', w') ∧
      ∀ e, stage'.error? = some e → e.IsEarly ∨ stage.error? = some e := by
  induction steps generalizing stage w with
  | zero => exact ⟨stage, w, rfl, fun e => .inr⟩
  | succ steps ih =>
    obtain ⟨stage₁, w₁, hadvance, hfirst⟩ := @error?_advance ν ε c version o stage w
    obtain ⟨stage', w', hdrive, hrest⟩ := ih stage₁ w₁
    refine ⟨stage', w', ?_, fun e he => (hrest e he).elim .inl (hfirst e)⟩
    rw [drive, Session.bind_of_ok hadvance]
    exact hdrive

/-- If there is no compiler, the asker was wrong or the compiler cannot be had. -/
theorem isEarly_of_ensure (h : (c.ensure version o w).1 = .error e) : e.IsEarly := by
  obtain ⟨stage, w', hdrive, hearly⟩ := @error?_drive ν CompilerError c version o maxSteps .starting w
  rw [ensure, Session.bind_of_ok hdrive] at h
  cases stage with
  | done result =>
    have hresult : result = .error e := h
    have herror : (Stage.done result).error? = some e := errorOf?_eq_some_iff.2 hresult
    exact (hearly e herror).resolve_right fun hstart => Option.some_ne_none e hstart.symm
  | _ =>
    -- the call did not come to its end
    cases h
    exact .inr rfl

end Cache

end Provenance
