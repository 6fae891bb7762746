import Provenance.Compiler.Invocation
import Provenance.Proofs.Passive

/-!
# Reports are not read

What was logged, and which spans are open, has no influence on anything: a session that is run in two worlds
that differ in their reports only ends alike, and leaves such worlds. This is shown for what a compilation is
made of, and so what is said about its steps may be said without the reports between them.
-/

namespace Provenance

variable {ν ε δ α β : Type} {o : Outside ν}

theorem World.Reported.symm {w w' : World ν} (h : w.Reported w') : w'.Reported w := by
  obtain ⟨spans, log, rfl⟩ := h
  exact ⟨w.spans, w.log, rfl⟩

namespace Session

/-- A session does not read reports. -/
def Blind (o : Outside ν) (session : Session ν ε α) : Prop :=
  ∀ ⦃w w' : World ν⦄, w.Reported w' →
    (session o w).1 = (session o w').1 ∧ (session o w).2.Reported (session o w').2

namespace Blind

variable {session : Session ν ε α} {f : α → Session ν ε β} {w w' w₁ : World ν}

/-- What a session comes to in one of two such worlds, it comes to in the other. -/
theorem transport {result : Except ε α} (h : Blind o session) (hw : w.Reported w')
    (hrun : session o w = (result, w₁)) : ∃ w₂, session o w' = (result, w₂) ∧ w₁.Reported w₂ := by
  obtain ⟨hresult, hleft⟩ := h hw
  rw [hrun] at hresult hleft
  exact ⟨(session o w').2, Prod.ext hresult.symm rfl, hleft⟩

theorem bind (h : Blind o session) (hf : ∀ a, Blind o (f a)) : Blind o (session >>= f) := by
  intro w w' hw
  rcases hrun : session o w with ⟨e | a, w₁⟩
  · obtain ⟨w₂, hrun', hleft⟩ := h.transport hw hrun
    rw [bind_of_error hrun, bind_of_error hrun']
    exact ⟨rfl, hleft⟩
  · obtain ⟨w₂, hrun', hleft⟩ := h.transport hw hrun
    rw [bind_of_ok hrun, bind_of_ok hrun']
    exact hf a hleft

theorem ofExcept (result : Except ε α) : Blind o (ofExcept result : Session ν ε α) :=
  fun _ _ hw => ⟨rfl, hw⟩

theorem pure (a : α) : Blind o (pure a : Session ν ε α) := fun _ _ hw => ⟨rfl, hw⟩

theorem fail (error : ε) : Blind o (fail error : Session ν ε α) := fun _ _ hw => ⟨rfl, hw⟩

theorem log (level : Log.Level) (part : Log.Part) (message : String) (fields : Log.Fields) :
    Blind o (log level part message fields : Session ν ε Unit) := by
  rintro w w' ⟨spans, log, rfl⟩
  exact ⟨rfl, _, _, rfl⟩

theorem note (effect : Effect) : Blind o (note effect : Session ν ε Unit) := by
  rintro w w' ⟨spans, log, rfl⟩
  exact ⟨rfl, _, _, rfl⟩

theorem exchange (request : Http.Request) : Blind o (exchange request : Session ν ε _) := by
  rintro w w' ⟨spans, log, rfl⟩
  exact ⟨rfl, _, _, rfl⟩

theorem attempt (h : Blind o session) : Blind o (session.attempt : Session ν δ _) :=
  fun _ _ hw => ⟨congrArg Except.ok (h hw).1, (h hw).2⟩

theorem mapError (h : Blind o session) (g : ε → δ) : Blind o (session.mapError g) := by
  intro w w' hw
  rw [mapError_apply, mapError_apply]
  exact ⟨congrArg (Except.mapError g) (h hw).1, (h hw).2⟩

theorem nextMishap : Blind o (nextMishap : Session ν ε _) := by
  rintro w w' ⟨spans, log, rfl⟩
  unfold Session.nextMishap
  dsimp only
  split <;> exact ⟨rfl, _, _, rfl⟩

theorem ask (question : Disk → Except IoFault α) : Blind o (ask question : Session ν IoFault α) := by
  refine nextMishap.bind fun mishap => ?_
  rintro w w' ⟨spans, log, rfl⟩
  exact ⟨rfl, _, _, rfl⟩

theorem run (program : String) (arguments : List String) (input : Bytes) (limit : Duration) :
    Blind o (run program arguments input limit : Session ν ε _) := by
  rintro w w' ⟨spans, log, rfl⟩
  unfold Session.run
  dsimp only
  split
  · exact ⟨rfl, _, _, rfl⟩
  · exact ⟨rfl, _, _, rfl⟩
  · split <;> exact ⟨rfl, _, _, rfl⟩

theorem closed : LogClosed fun {_} (session : Session ν ε _) => Blind o session :=
  ⟨⟨pure, fail, bind, exchange⟩, log⟩

theorem get (address : String) (headers : List (String × String)) :
    Blind o (Http.get address headers : Session ν _ _) :=
  closed.send _ _ _ _

end Blind

end Session

/-! ## Making sure of a compiler -/

namespace Cache

variable (c : Cache) (version : String)

/-- A step depends on what the cache keeps of a world only. -/
theorem blind_stepAloud (stage : Stage) :
    Session.Blind o (c.stepAloud version stage : Session ν ε Stage) := by
  have hstep : ∀ mishap : Option Mishap, Session.Blind o (do
      let w ← Session.world
      let stepped := step c version mishap stage ⟨w.memory, w.disk⟩
      Session.modify fun w => { w with memory := stepped.2.memory, disk := stepped.2.disk }
      report c version stage stepped.1
      return stepped.1 : Session ν ε Stage) := by
    rintro mishap w w' ⟨spans, log, rfl⟩
    have hreport : ∀ next, Session.Blind o (do
        report c version stage next
        return next : Session ν ε Stage) :=
      fun next => (Session.Blind.closed.report c version stage next).bind fun _ => .pure next
    exact hreport (step c version mishap stage w.shared).1 ⟨spans, log, rfl⟩
  unfold stepAloud
  split
  · exact Session.Blind.nextMishap.bind hstep
  · exact hstep none

theorem blind_advance (stage : Stage) : Session.Blind o (c.advance version stage : Session ν ε Stage) := by
  have hdownload : ∀ address, Session.Blind o (download version address : Session ν ε _) := fun address =>
    (Session.Blind.note _).bind fun _ => (Session.Blind.get _ _).attempt
  unfold advance
  split
  · exact (hdownload _).bind fun reply => .pure _
  · exact blind_stepAloud c version _

theorem blind_drive (steps : Nat) (stage : Stage) :
    Session.Blind o (c.drive version steps stage : Session ν ε Stage) := by
  induction steps generalizing stage with
  | zero => exact .pure stage
  | succ steps ih => exact (blind_advance c version stage).bind ih

theorem blind_ensure : Session.Blind o (c.ensure version : Session ν CompilerError String) := by
  refine (blind_drive c version maxSteps .starting).bind fun stage => ?_
  split
  · exact .ofExcept _
  · exact .fail _

end Cache

theorem Backend.blind_invocation (backend : Backend) (cache : Cache) (compiler : String) :
    Session.Blind o (backend.invocation cache compiler : Session ν CompilerError Invocation) := by
  cases backend with
  | solc => exact .pure _
  | revive tag =>
    rw [invocation]
    dsimp only
    split
    · exact .fail _
    · refine ((Session.Blind.ask _).mapError _).bind fun isInstalled => ?_
      split
      · exact .pure _
      · exact .fail _

end Provenance
