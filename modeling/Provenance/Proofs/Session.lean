import Provenance.Chain.Client
import Provenance.Proofs.Except

/-!
# Sessions, step by step

What single steps of a session do to the world: logging only adds to the log, and a delegated session
leaves one effect whatever it does.
-/

namespace Provenance

variable {ν ε δ α β : Type}

/-- The world after some events were logged in it. -/
def World.logged (w : World ν) (events : List Log.Event) : World ν :=
  { w with log := w.log ++ events.map fun event => ⟨event, w.spans⟩ }

@[simp] theorem World.logged_nil (w : World ν) : w.logged [] = w := by
  simp [World.logged]

@[simp] theorem World.logged_logged (w : World ν) (events more : List Log.Event) :
    (w.logged events).logged more = w.logged (events ++ more) := by
  simp [World.logged]

@[simp] theorem World.effects_logged (w : World ν) (events : List Log.Event) :
    (w.logged events).effects = w.effects := rfl

/-- The error of a result. -/
def errorOf? : Except ε α → Option ε
  | .ok _ => none
  | .error e => some e

theorem errorOf?_eq_some_iff {result : Except ε α} {error : ε} :
    errorOf? result = some error ↔ result = .error error := by
  cases result <;> simp [errorOf?]

namespace Session

variable {o : Outside ν} {w w' : World ν}

/-- Going on after a value. -/
theorem bind_of_ok {s : Session ν ε α} {a : α} (h : s o w = (.ok a, w')) (f : α → Session ν ε β) :
    (s >>= f) o w = f a o w' := by
  rw [bind_apply, h]

/-- Nothing goes on after an error. -/
theorem bind_of_error {s : Session ν ε α} {e : ε} (h : s o w = (.error e, w'))
    (f : α → Session ν ε β) : (s >>= f) o w = (.error e, w') := by
  rw [bind_apply, h]

instance : LawfulMonad (Session ν ε) := by
  refine LawfulMonad.mk' _ ?_ (fun _ _ => rfl) ?_
  · intro α s
    funext o w
    show (s >>= pure) o w = s o w
    rw [bind_apply]
    rcases s o w with ⟨e | a, w'⟩ <;> rfl
  · intro α β γ s f g
    funext o w
    rw [bind_apply, bind_apply, bind_apply]
    rcases s o w with ⟨e | a, w'⟩ <;> rfl

theorem log_apply (level : Log.Level) (part : Log.Part) (message : String) (fields : Log.Fields) :
    (log level part message fields : Session ν ε Unit) o w
      = (.ok (), w.logged [⟨level, part.target, .shown message, fields⟩]) := rfl

/-- Logging first. -/
theorem log_bind_apply (level : Log.Level) (part : Log.Part) (message : String)
    (fields : Log.Fields) (s : Session ν ε α) :
    (do log level part message fields; s : Session ν ε α) o w
      = s o (w.logged [⟨level, part.target, .shown message, fields⟩]) := rfl

theorem mapError_apply (f : ε → δ) (s : Session ν ε α) :
    s.mapError f o w = ((s o w).1.mapError f, (s o w).2) := by
  rw [mapError]
  generalize s o w = r
  obtain ⟨result, w'⟩ := r
  cases result with
  | ok a => rfl
  | error e => rfl

/-- A session inside a span is one in the world that has the span, which is closed after it. -/
theorem within_apply (name : String) (part : Log.Part) (fields : Log.Fields) (s : Session ν ε α) :
    s.within name part fields o w
      = ((s o { w with spans := Log.Span.start name .info part.target fields :: w.spans }).1,
          { (s o { w with spans := Log.Span.start name .info part.target fields :: w.spans }).2 with
            spans := (s o { w with
              spans := Log.Span.start name .info part.target fields :: w.spans }).2.spans.tail }) := by
  unfold within
  generalize s o _ = r
  rfl

/-- A value comes of a session that goes on from the value of a first one. -/
theorem bind_eq_ok_iff {s : Session ν ε α} {f : α → Session ν ε β} {b : β} :
    (s >>= f) o w = (.ok b, w') ↔ ∃ a w₁, s o w = (.ok a, w₁) ∧ f a o w₁ = (.ok b, w') := by
  rw [bind_apply]
  rcases s o w with ⟨e | a, w₁⟩
  · simp
  · exact ⟨fun h => ⟨a, w₁, rfl, h⟩, by rintro ⟨_, _, ⟨⟩, h⟩; exact h⟩

/-- An error comes of the first session or of what goes on from its value. -/
theorem bind_eq_error_iff {s : Session ν ε α} {f : α → Session ν ε β} {e : ε} :
    (s >>= f) o w = (.error e, w') ↔
      s o w = (.error e, w') ∨ ∃ a w₁, s o w = (.ok a, w₁) ∧ f a o w₁ = (.error e, w') := by
  rw [bind_apply]
  rcases s o w with ⟨e | a, w₁⟩
  · simp
  · refine ⟨fun h => .inr ⟨a, w₁, rfl, h⟩, ?_⟩
    rintro (⟨⟨⟩⟩ | ⟨_, _, ⟨⟩, h⟩)
    exact h

theorem mapError_apply_eq_ok_iff {f : ε → δ} {s : Session ν ε α} {a : α} :
    s.mapError f o w = (.ok a, w') ↔ s o w = (.ok a, w') := by
  rw [mapError_apply]
  rcases s o w with ⟨e | a, w₁⟩ <;> simp

theorem mapError_apply_eq_error_iff {f : ε → δ} {s : Session ν ε α} {error : δ} :
    s.mapError f o w = (.error error, w') ↔ ∃ e, s o w = (.error e, w') ∧ f e = error := by
  rw [mapError_apply]
  rcases s o w with ⟨e | a, w₁⟩
  · constructor
    · rintro ⟨⟩
      exact ⟨e, rfl, rfl⟩
    · rintro ⟨_, ⟨⟩, rfl⟩
      rfl
  · simp

/-- Whatever comes of a session, the attempt at it comes to this as a value. -/
theorem attempt_apply_of {s : Session ν ε α} {result : Except ε α} (h : s o w = (result, w')) :
    (s.attempt : Session ν δ (Except ε α)) o w = (.ok result, w') := by
  rw [attempt, h]

/-- The result of a delegated session is that of the session in the world that has the effect. -/
theorem delegate_fst (effect : Effect) (s : Session ν ε α) :
    (delegate effect s o w).1 = (s o { w with effects := w.effects ++ [effect] }).1 := rfl

/-- Whatever a delegated session does, it leaves one effect. -/
theorem effects_delegate (effect : Effect) (s : Session ν ε α) :
    (delegate effect s o w).2.effects = w.effects ++ [effect] := rfl

/-- A session that logs an event for each of some things. -/
theorem forM_log {step : α → Session ν ε PUnit} {event : α → Log.Event}
    (h : ∀ a w, step a o w = (.ok (), w.logged [event a])) (xs : List α) :
    xs.forM step o w = (.ok (), w.logged (xs.map event)) := by
  induction xs generalizing w with
  | nil =>
    rw [List.map_nil, World.logged_nil]
    rfl
  | cons x xs ih =>
    show (step x >>= fun _ => xs.forM step) o w = _
    rw [bind_apply, h]
    show xs.forM step o (w.logged [event x]) = _
    rw [ih, World.logged_logged, List.map_cons, List.singleton_append]

end Session

/-! ## A world to run sessions in -/

/-- An outside in which nothing answers. -/
def Outside.idle : Outside Unit where
  exchange _ outside := (none, outside)
  run _ outside := (.timedOut, outside)
  draw _ outside := (0, outside)
  listen _ outside := (.error .addressNotAvailable, outside)

/-- The world in which nothing has happened and no file stands. -/
def World.blank : World Unit := .start () ⟨[], []⟩

/-- A client that tells one input for every contract, and no deployed code. -/
def ChainClient.telling (input : String) : ChainClient Unit where
  deployedCode _ _ := pure (String.ofList Hex.mark)
  creationCode _ _ := pure input

end Provenance
