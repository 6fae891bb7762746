import Provenance.Cache.Step
import Provenance.Chain.Endpoints
import Provenance.Proofs.Closure

/-!
# Sessions that leave no effect

A session is passive if all it does is to ask, to log and to go on with what it was told: the cache's memory,
the files and the list of effects stay as they are. Whatever is asked of a chain is passive.
-/

namespace Provenance

variable {ν ε δ α β : Type} {o : Outside ν}

/-- What the cache keeps of a world. -/
def World.shared (w : World ν) : Cache.Shared := ⟨w.memory, w.disk⟩

@[simp] theorem World.shared_logged (w : World ν) (events : List Log.Event) :
    (w.logged events).shared = w.shared := rfl

/-- Two worlds differ at most in their spans and in what was logged. -/
def World.Reported (w w' : World ν) : Prop := ∃ spans log, w' = { w with spans, log }

namespace World.Reported

variable {w w' w'' : World ν}

theorem refl (w : World ν) : w.Reported w := ⟨_, _, rfl⟩

theorem trans (h : w.Reported w') (h' : w'.Reported w'') : w.Reported w'' := by
  obtain ⟨spans, log, rfl⟩ := h
  obtain ⟨spans', log', rfl⟩ := h'
  exact ⟨spans', log', rfl⟩

theorem logged (w : World ν) (events : List Log.Event) : w.Reported (w.logged events) := ⟨_, _, rfl⟩

theorem spanned (w : World ν) (spans : List Log.Span) : w.Reported { w with spans } := ⟨_, _, rfl⟩

theorem shared (h : w.Reported w') : w'.shared = w.shared := by
  obtain ⟨spans, log, rfl⟩ := h
  rfl

theorem disk (h : w.Reported w') : w'.disk = w.disk := congrArg Cache.Shared.disk h.shared

theorem effects (h : w.Reported w') : w'.effects = w.effects := by
  obtain ⟨spans, log, rfl⟩ := h
  rfl

end World.Reported

namespace Session

/-- A session leaves the memory, the files and the effects. -/
def Passive (o : Outside ν) (session : Session ν ε α) : Prop :=
  ∀ w, (session o w).2.shared = w.shared ∧ (session o w).2.effects = w.effects

namespace Passive

variable {session : Session ν ε α} {f : α → Session ν ε β}

theorem bind (h : Passive o session) (hf : ∀ a, Passive o (f a)) : Passive o (session >>= f) := by
  intro w
  obtain ⟨hshared, heffects⟩ := h w
  rw [bind_apply]
  revert hshared heffects
  generalize session o w = r
  obtain ⟨result, w'⟩ := r
  intro hshared heffects
  cases result with
  | ok a =>
    obtain ⟨hshared', heffects'⟩ := hf a w'
    exact ⟨hshared'.trans hshared, heffects'.trans heffects⟩
  | error e => exact ⟨hshared, heffects⟩

theorem ofExcept (result : Except ε α) : Passive o (ofExcept result : Session ν ε α) :=
  fun _ => ⟨rfl, rfl⟩

theorem pure (a : α) : Passive o (pure a : Session ν ε α) := fun _ => ⟨rfl, rfl⟩

theorem fail (error : ε) : Passive o (fail error : Session ν ε α) := fun _ => ⟨rfl, rfl⟩

theorem log (level : Log.Level) (part : Log.Part) (message : String) (fields : Log.Fields) :
    Passive o (log level part message fields : Session ν ε Unit) := fun _ => ⟨rfl, rfl⟩

theorem record (name : String) (value : Log.Value) :
    Passive o (record name value : Session ν ε Unit) := fun _ => ⟨rfl, rfl⟩

theorem exchange (request : Http.Request) : Passive o (exchange request : Session ν ε _) :=
  fun _ => ⟨rfl, rfl⟩

theorem draw (bound : Nat) : Passive o (draw bound : Session ν ε _) := fun _ => ⟨rfl, rfl⟩

theorem mapError (h : Passive o session) (g : ε → δ) : Passive o (session.mapError g) := by
  intro w
  rw [mapError_apply]
  exact h w

theorem ask (question : Disk → Except IoFault α) : Passive o (ask question : Session ν IoFault α) := by
  refine bind ?_ fun mishap => bind (fun _ => ⟨rfl, rfl⟩) fun w => ofExcept _
  intro w
  unfold nextMishap
  split <;> exact ⟨rfl, rfl⟩

theorem forM {step : α → Session ν ε PUnit} (h : ∀ a, Passive o (step a)) (xs : List α) :
    Passive o (xs.forM step) := by
  induction xs with
  | nil => exact pure ()
  | cons x xs ih => exact (h x).bind fun _ => ih

theorem closed : LogClosed fun {_} (session : Session ν ε _) => Passive o session :=
  ⟨⟨pure, fail, bind, exchange⟩, log⟩

theorem get (address : String) (headers : List (String × String)) :
    Passive o (Http.get address headers : Session ν _ _) :=
  closed.send _ _ _ _

theorem postJson (address : String) (document : Json.Value) :
    Passive o (Http.postJson address document : Session ν _ _) := by
  unfold Http.postJson
  exact closed.send _ _ _ _

end Passive

end Session

namespace Registry

variable (r : Registry) (chain : Nat) (address : String)

theorem passive_post (url : Url) (document : Json.Value) :
    Session.Passive o (post chain url document : Session ν ChainError _) := by
  unfold post
  refine ((Session.Passive.postJson _ _).mapError _).bind fun reply => .bind (.log _ _ _ _) fun _ => ?_
  split
  · exact .ofExcept _
  · exact .fail _

theorem passive_fetchDeployed : Session.Passive o (r.fetchDeployed chain address : Session ν _ _) := by
  unfold fetchDeployed
  split
  · exact .fail _
  · refine .bind (.draw _) fun id => .bind (.log _ _ _ _) fun _ => ?_
    exact (passive_post chain _ _).bind fun reply => .ofExcept _

theorem passive_fetchCreation : Session.Passive o (r.fetchCreation chain address : Session ν _ _) := by
  unfold fetchCreation
  split
  · exact .fail _
  · split
    · exact .fail _
    · refine .bind (.log _ _ _ _) fun _ => ?_
      exact (passive_post chain _ _).bind fun reply => .ofExcept _

end Registry

end Provenance
