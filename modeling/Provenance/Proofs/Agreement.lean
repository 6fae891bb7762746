import Provenance.Cache.Step
import Provenance.Proofs.Closure

/-!
# Sessions in two worlds

A session is followed in two worlds with different memories and files. It ends in the same way in both of
them (`Session.Agrees`) if all that it asks for is the same there: what was logged and noted before, and
what has become of the outside, makes no difference.
-/

namespace Provenance

open Cache (Shared)

variable {ν ε δ α β : Type} {s s' : Shared}

/-- A world with a memory and files in which no operation on files is going to go wrong for no reason. -/
structure World.At (s : Shared) (w : World ν) : Prop where
  memory : w.memory = s.memory
  disk : w.disk = s.disk
  mishaps : w.mishaps = []

/-- How a program ends depends on the program and what it is given alone. -/
def Outside.RunsAlike (o : Outside ν) : Prop :=
  ∀ (job : Program.Job) (x x' : ν), (o.run job x').1 = (o.run job x).1

namespace Session

variable {o : Outside ν} {w w' : World ν} {session : Session ν ε α} {f : α → Session ν ε β}

/-- Going on after a value, as far as the result is concerned. -/
theorem fst_bind_of_ok {a : α} (h : (session o w).1 = .ok a) (f : α → Session ν ε β) :
    ((session >>= f) o w).1 = (f a o (session o w).2).1 := by
  have hrun : session o w = (.ok a, (session o w).2) := Prod.ext h rfl
  rw [bind_of_ok hrun]

/-- Nothing goes on after an error, as far as the result is concerned. -/
theorem fst_bind_of_error {e : ε} (h : (session o w).1 = .error e) (f : α → Session ν ε β) :
    ((session >>= f) o w).1 = .error e := by
  have hrun : session o w = (.error e, (session o w).2) := Prod.ext h rfl
  rw [bind_of_error hrun]

theorem fst_attempt : ((session.attempt : Session ν δ _) o w).1 = .ok (session o w).1 := rfl

/-- Working inside a span is working. -/
theorem within_of_at (hw : w.At s) (session : Session ν ε α) (name : String) (part : Log.Part)
    (fields : Log.Fields) :
    ∃ w', w'.At s ∧ (Session.within name part fields session o w).1 = (session o w').1 ∧
      ∀ t, (session o w').2.At t → (Session.within name part fields session o w).2.At t :=
  ⟨{ w with spans := Log.Span.start name .info part.target fields :: w.spans }, ⟨hw.1, hw.2, hw.3⟩, rfl,
    fun _ ht => ⟨ht.1, ht.2, ht.3⟩⟩

/-! ## Sessions that leave the memory and the files -/

/-- A session leaves the memory and the files as they are. -/
def Quiet (o : Outside ν) (session : Session ν ε α) : Prop :=
  ∀ (s : Shared) (w : World ν), w.At s → (session o w).2.At s

namespace Quiet

theorem bind (h : Quiet o session) (hf : ∀ a, Quiet o (f a)) : Quiet o (session >>= f) := by
  intro s w hw
  have hleft := h s w hw
  rw [bind_apply]
  revert hleft
  generalize session o w = r
  obtain ⟨result, w'⟩ := r
  intro hleft
  cases result with
  | ok a => exact hf a s w' hleft
  | error e => exact hleft

theorem ofExcept (result : Except ε α) : Quiet o (ofExcept result : Session ν ε α) := fun _ _ hw => hw

theorem pure (a : α) : Quiet o (pure a : Session ν ε α) := fun _ _ hw => hw

theorem fail (error : ε) : Quiet o (fail error : Session ν ε α) := fun _ _ hw => hw

theorem log (level : Log.Level) (part : Log.Part) (message : String) (fields : Log.Fields) :
    Quiet o (log level part message fields : Session ν ε Unit) := fun _ _ hw => ⟨hw.1, hw.2, hw.3⟩

theorem record (name : String) (value : Log.Value) :
    Quiet o (record name value : Session ν ε Unit) := fun _ _ hw => ⟨hw.1, hw.2, hw.3⟩

theorem note (effect : Effect) : Quiet o (note effect : Session ν ε Unit) :=
  fun _ _ hw => ⟨hw.1, hw.2, hw.3⟩

theorem exchange (request : Http.Request) : Quiet o (exchange request : Session ν ε _) :=
  fun _ _ hw => ⟨hw.1, hw.2, hw.3⟩

theorem attempt (h : Quiet o session) : Quiet o (session.attempt : Session ν δ _) := h

theorem delegate (h : Quiet o session) (effect : Effect) : Quiet o (delegate effect session) := by
  intro s w hw
  have hleft := h s { w with effects := w.effects ++ [effect] } ⟨hw.1, hw.2, hw.3⟩
  exact ⟨hleft.1, hleft.2, hleft.3⟩

/-- Running a program leaves the files, since programs are not given any. -/
theorem run (program : String) (arguments : List String) (input : Bytes) (limit : Duration) :
    Quiet o (run program arguments input limit : Session ν ε _) := by
  intro s w hw
  rw [Session.run]
  split
  · exact hw
  · exact hw
  · split
    · exact hw
    · exact ⟨hw.1, hw.2, hw.3⟩

theorem closed : LogClosed fun {_} (session : Session ν ε _) => Quiet o session :=
  ⟨⟨pure, fail, bind, exchange⟩, log⟩

theorem get (address : String) (headers : List (String × String)) :
    Quiet o (Http.get address headers : Session ν _ _) :=
  closed.send _ _ _ _

end Quiet

/-! ## Sessions that end alike -/

/-- A session always ends in the same way, and leaves the memory and the files. -/
structure Constant (o : Outside ν) (session : Session ν ε α) : Prop where
  quiet : Quiet o session
  same : ∀ w w' : World ν, (session o w').1 = (session o w).1

/-- Two runs end in the same way, in a world with the one memory and files and in a world with the other,
and not with an error that is not allowed. -/
structure Alike (s s' : Shared) (allowed : ε → Prop) (run run' : Except ε α × World ν) : Prop where
  same : run'.1 = run.1
  here : run.2.At s
  there : run'.2.At s'
  errors : ∀ error, run.1 = .error error → allowed error

/-- A session ends in the same way wherever it has one of two memories and files, and leaves these. -/
def Agrees (o : Outside ν) (s s' : Shared) (allowed : ε → Prop) (session : Session ν ε α) : Prop :=
  ∀ w w' : World ν, w.At s → w'.At s' → Alike s s' allowed (session o w) (session o w')

namespace Agrees

variable {allowed : ε → Prop} {allowed' : δ → Prop}

/-- A session that leaves the memory and the files, and asks for nothing that differs. -/
theorem of_quiet (h : Quiet o session)
    (hsame : ∀ w w' : World ν, w.At s → w'.At s' → (session o w').1 = (session o w).1)
    (herrors : ∀ w : World ν, w.At s → ∀ error, (session o w).1 = .error error → allowed error) :
    Agrees o s s' allowed session :=
  fun w w' hw hw' => ⟨hsame w w' hw hw', h s w hw, h s' w' hw', herrors w hw⟩

theorem ofExcept {result : Except ε α} (h : ∀ error, result = .error error → allowed error) :
    Agrees o s s' allowed (ofExcept result : Session ν ε α) :=
  of_quiet (.ofExcept result) (fun _ _ _ _ => rfl) fun _ _ => h

theorem pure (a : α) : Agrees o s s' allowed (pure a : Session ν ε α) :=
  of_quiet (.pure a) (fun _ _ _ _ => rfl) fun _ _ => nofun

theorem fail {error : ε} (h : allowed error) : Agrees o s s' allowed (fail error : Session ν ε α) :=
  ofExcept fun _ heq => Except.error.inj heq ▸ h

theorem log (level : Log.Level) (part : Log.Part) (message : String) (fields : Log.Fields) :
    Agrees o s s' allowed (log level part message fields : Session ν ε Unit) :=
  of_quiet (Quiet.log _ _ _ _) (fun _ _ _ _ => rfl) fun _ _ => nofun

theorem record (name : String) (value : Log.Value) :
    Agrees o s s' allowed (record name value : Session ν ε Unit) :=
  of_quiet (Quiet.record _ _) (fun _ _ _ _ => rfl) fun _ _ => nofun

/-- Going on with a value of which something is known. -/
theorem bind_of {P : α → Prop} (h : Agrees o s s' allowed session)
    (hvalue : ∀ (w : World ν) (a : α), w.At s → (session o w).1 = .ok a → P a)
    (hf : ∀ a, P a → Agrees o s s' allowed (f a)) : Agrees o s s' allowed (session >>= f) := by
  intro w w' hw hw'
  obtain ⟨hsame, hhere, hthere, herrors⟩ := h w w' hw hw'
  have hproperty := hvalue w
  rw [bind_apply, bind_apply]
  revert hsame hhere hthere herrors hproperty
  generalize session o w = r
  generalize session o w' = r'
  obtain ⟨result, v⟩ := r
  obtain ⟨result', v'⟩ := r'
  rintro rfl hhere hthere herrors hproperty
  -- both runs go on, with the same value, or neither does
  cases result' with
  | ok a => exact hf a (hproperty a hw rfl) v v' hhere hthere
  | error e => exact ⟨rfl, hhere, hthere, fun _ heq => herrors _ (congrArg _ (Except.error.inj heq))⟩

theorem bind (h : Agrees o s s' allowed session) (hf : ∀ a, Agrees o s s' allowed (f a)) :
    Agrees o s s' allowed (session >>= f) :=
  bind_of (P := fun _ => True) h (fun _ _ _ _ => trivial) fun a _ => hf a

/-- Going on with what is known already. -/
theorem ofExcept_bind {result : Except ε α} (herror : ∀ error, result = .error error → allowed error)
    (hf : ∀ a, result = .ok a → Agrees o s s' allowed (f a)) :
    Agrees o s s' allowed (Session.ofExcept result >>= f) :=
  (ofExcept herror).bind_of (fun _ _ _ h => h) hf

theorem mapError {g : ε → δ} (h : Agrees o s s' (fun e => allowed' (g e)) session) :
    Agrees o s s' allowed' (session.mapError g) := by
  intro w w' hw hw'
  obtain ⟨hsame, hhere, hthere, herrors⟩ := h w w' hw hw'
  rw [mapError_apply, mapError_apply]
  refine ⟨by rw [hsame], hhere, hthere, fun error heq => ?_⟩
  obtain ⟨e, he, rfl⟩ := mapError_eq_error_iff.1 heq
  exact herrors e he

/-- Going on with a result, be it an error. -/
theorem attempt_bind {g : Except ε α → Session ν δ β} (h : Agrees o s s' allowed session)
    (hok : ∀ a, Agrees o s s' allowed' (g (.ok a)))
    (herror : ∀ e, allowed e → Agrees o s s' allowed' (g (.error e))) :
    Agrees o s s' allowed' (session.attempt >>= g) := by
  intro w w' hw hw'
  obtain ⟨hsame, hhere, hthere, herrors⟩ := h w w' hw hw'
  show Alike s s' allowed' (g (session o w).1 o (session o w).2) (g (session o w').1 o (session o w').2)
  rw [hsame]
  revert herrors
  generalize (session o w).1 = result
  intro herrors
  -- an error is a value to what goes on, and is still known to be allowed
  cases result with
  | ok a => exact hok a _ _ hhere hthere
  | error e => exact herror e (herrors e rfl) _ _ hhere hthere

theorem within (h : Agrees o s s' allowed session) (name : String) (part : Log.Part)
    (fields : Log.Fields) : Agrees o s s' allowed (within name part fields session) := by
  intro w w' hw hw'
  obtain ⟨w₁, hw₁, hresult, hleft⟩ := within_of_at (o := o) hw session name part fields
  obtain ⟨w₂, hw₂, hresult', hleft'⟩ := within_of_at (o := o) hw' session name part fields
  obtain ⟨hsame, hhere, hthere, herrors⟩ := h w₁ w₂ hw₁ hw₂
  refine ⟨?_, hleft s hhere, hleft' s' hthere, ?_⟩
  · rw [hresult, hresult', hsame]
  · rw [hresult]
    exact herrors

/-- Others may be asked what they always answer alike. -/
theorem delegate (h : Constant o session) (effect : Effect) (herrors : ∀ error, allowed error) :
    Agrees o s s' allowed (Session.delegate effect session) :=
  of_quiet (h.quiet.delegate effect) (fun _ _ _ _ => h.same _ _) fun _ _ error _ => herrors error

theorem forM {step : α → Session ν ε PUnit} (h : ∀ a, Agrees o s s' allowed (step a)) (xs : List α) :
    Agrees o s s' allowed (xs.forM step) := by
  induction xs with
  | nil => exact pure ()
  | cons x xs ih => exact (h x).bind fun _ => ih

end Agrees

/-! ## Files -/

/-- Where nothing goes wrong for no reason, the disk is asked as it is. -/
theorem ask_of_at (hw : w.At s) (question : Disk → Except IoFault α) :
    ask question o w = (question s.disk, w) := by
  have hmishap : (nextMishap : Session ν IoFault _) o w = (.ok none, w) := by
    rw [nextMishap, hw.mishaps]
  rw [ask, bind_of_ok hmishap, ← hw.disk]
  rfl

theorem Agrees.ask {allowed : IoFault → Prop} {question : Disk → Except IoFault α}
    (hsame : question s'.disk = question s.disk)
    (herrors : ∀ fault, question s.disk = .error fault → allowed fault) :
    Agrees o s s' allowed (ask question : Session ν _ _) := by
  intro w w' hw hw'
  rw [ask_of_at hw, ask_of_at hw']
  exact ⟨hsame, hw, hw', herrors⟩

/-- A program is run alike if it is the same file, and ends as it always does. -/
theorem Agrees.run {allowed : ε → Prop} {program : String}
    (hsame : s'.disk.find program = s.disk.find program) (hends : o.RunsAlike)
    (arguments : List String) (input : Bytes) (limit : Duration) :
    Agrees o s s' allowed (run program arguments input limit : Session ν ε _) := by
  refine of_quiet (Quiet.run _ _ _ _) (fun w w' hw hw' => ?_) fun w hw error => ?_
  · rw [Session.run, Session.run, hw.disk, hw'.disk, hsame]
    split
    · rfl
    · rfl
    · split
      · rfl
      · exact congrArg Except.ok (hends _ _ _)
  · rw [Session.run]
    split
    · nofun
    · nofun
    · split <;> nofun

end Session

end Provenance
