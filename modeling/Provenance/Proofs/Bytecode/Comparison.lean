import Provenance.Bytecode.Compare
import Provenance.Proofs.Bytecode.Linking
import Provenance.Proofs.Bytecode.Trailer
import Provenance.Proofs.Session

/-!
# Comparisons

A comparison first looks at the code on the chain alone. What it finds there is a function of the two
deployed codes (`conclusion?`), and all it does meanwhile is log. Only if this tells nothing it asks for
the creation code, once.
-/

namespace Provenance.Bytecode

open Text

theorem normalize_ofList (cs : List Char) :
    normalize (String.ofList cs) = asciiLowercase (Hex.bare (trim cs)) := by
  rw [normalize, String.toList_ofList]

/-! ## What is found without the creation code -/

variable {template creation actual linked : List Char}

theorem likeness_eq_equal_iff : likeness linked actual = .equal ↔ linked = actual := by
  unfold likeness
  grind

theorem likeness_eq_equalBodies_iff :
    likeness linked actual = .equalBodies ↔
      linked ≠ actual ∧ stripTrailer linked = stripTrailer actual := by
  unfold likeness
  grind

theorem likeness_eq_differentContents_iff :
    likeness linked actual = .differentContents ↔
      linked ≠ actual ∧ stripTrailer linked ≠ stripTrailer actual ∧
        byteLength (stripTrailer linked) = byteLength (stripTrailer actual) := by
  unfold likeness
  grind

/-- The status that follows from a likeness, unless the creation code has to tell. -/
def Likeness.status? (creation : List Char) : Likeness → Option Status
  | .equal => some .perfect
  | .equalBodies => some .partially
  | .differentLengths _ _ => some .mismatch
  | .differentContents => if creation.isEmpty then some .mismatch else none

/-- The status that follows from the deployed codes, unless the creation code has to tell. -/
def conclusion? (template creation actual : List Char) : Except LinkError (Option Status) :=
  (link template actual).map fun linked => (likeness linked actual).status? creation

/-- The creation code has to tell: the linked code and the code on the chain differ in content within
bodies of one length. -/
def Undecided (template creation actual : List Char) : Prop :=
  ∃ linked, link template actual = .ok linked ∧ linked ≠ actual ∧
    stripTrailer linked ≠ stripTrailer actual ∧
    byteLength (stripTrailer linked) = byteLength (stripTrailer actual) ∧ creation ≠ []

private theorem conclusion?_eq_ok_iff {status : Option Status} :
    conclusion? template creation actual = .ok status ↔
      ∃ linked, link template actual = .ok linked ∧
        (likeness linked actual).status? creation = status := by
  unfold conclusion?
  cases link template actual with
  | error e => simp [Except.map]
  | ok linked => simp [Except.map]

theorem conclusion?_eq_perfect_iff :
    conclusion? template creation actual = .ok (some .perfect) ↔
      link template actual = .ok actual := by
  rw [conclusion?_eq_ok_iff]
  constructor
  · intro h
    obtain ⟨linked, hlink, hstatus⟩ := h
    have heq : likeness linked actual = .equal := by
      revert hstatus
      cases likeness linked actual <;> simp [Likeness.status?]
    rw [hlink, likeness_eq_equal_iff.1 heq]
  · intro h
    have heq : likeness actual actual = .equal := likeness_eq_equal_iff.2 rfl
    exact ⟨actual, h, by rw [heq]; rfl⟩

theorem conclusion?_eq_partially_iff :
    conclusion? template creation actual = .ok (some .partially) ↔
      ∃ linked, link template actual = .ok linked ∧ linked ≠ actual ∧
        stripTrailer linked = stripTrailer actual := by
  rw [conclusion?_eq_ok_iff]
  constructor
  · intro h
    obtain ⟨linked, hlink, hstatus⟩ := h
    have hbodies : likeness linked actual = .equalBodies := by
      revert hstatus
      cases likeness linked actual <;> simp [Likeness.status?]
    exact ⟨linked, hlink, likeness_eq_equalBodies_iff.1 hbodies⟩
  · intro h
    obtain ⟨linked, hlink, hdiff⟩ := h
    exact ⟨linked, hlink, by rw [likeness_eq_equalBodies_iff.2 hdiff]; rfl⟩

theorem conclusion?_eq_none_iff :
    conclusion? template creation actual = .ok none ↔ Undecided template creation actual := by
  rw [conclusion?_eq_ok_iff]
  constructor
  · intro h
    obtain ⟨linked, hlink, hstatus⟩ := h
    have hcontents : likeness linked actual = .differentContents ∧ creation ≠ [] := by
      revert hstatus
      cases likeness linked actual <;> simp [Likeness.status?]
    obtain ⟨hdiff, hbodies, hlen⟩ := likeness_eq_differentContents_iff.1 hcontents.1
    exact ⟨linked, hlink, hdiff, hbodies, hlen, hcontents.2⟩
  · intro h
    obtain ⟨linked, hlink, hdiff, hbodies, hlen, hcreation⟩ := h
    have hcontents := likeness_eq_differentContents_iff.2 ⟨hdiff, hbodies, hlen⟩
    refine ⟨linked, hlink, ?_⟩
    rw [hcontents, Likeness.status?, if_neg (by simpa using hcreation)]

/-! ## The session of a comparison -/

/-- The event that reports a placeholder. -/
def Resolved.event (r : Resolved) : Log.Event :=
  ⟨.debug, Log.Part.bytecode.target, .shown "Resolved library placeholder", [
    ("placeholder", .shown (String.ofList r.placeholder)),
    ("offset", .integer r.offset),
    ("address", .shown (String.ofList r.address))]⟩

/-- The event that reports that the creation code has to tell. -/
def undecidedEvent : Log.Event :=
  ⟨.debug, Log.Part.bytecode.target,
    .shown "Deployed bytecode differs at equal length, checking creation input", []⟩

section
variable {ν : Type} {o : Outside ν} {w : World ν} {client : ChainClient ν} {chain : Nat}
  {address onChain : String} {artifact : Artifact}

private theorem linkAloud_apply (template actual : List Char) :
    linkAloud template actual o w
      = ((link template actual).mapError .bytecode,
          w.logged ((scan template actual).1.map Resolved.event)) := by
  have hlog : ∀ r (w : World ν), (logResolved r : Session ν VerifierError Unit) o w
      = (.ok (), w.logged [r.event]) := fun _ _ => rfl
  rw [linkAloud, Session.bind_of_ok (Session.forM_log hlog _)]
  rfl

theorem linkAloud_of_ok (h : link template actual = .ok linked) :
    linkAloud template actual o w
      = (.ok linked, w.logged ((scan template actual).1.map Resolved.event)) := by
  rw [linkAloud_apply, h]
  rfl

theorem linkAloud_of_error {e : LinkError} (h : link template actual = .error e) :
    linkAloud template actual o w
      = (.error (.bytecode e), w.logged ((scan template actual).1.map Resolved.event)) := by
  rw [linkAloud_apply, h]
  rfl

/-- The result of comparing creation code with an input. -/
def creationResult (creation input : List Char) : Except LinkError Verdict :=
  (link creation input).map fun linked => creationVerdict linked input

/-- Once the input is known, all that a comparison does is log. -/
theorem compareInput_apply (creation : List Char) (input : String) :
    ∃ events, compareInput creation input o w
      = ((creationResult creation (normalize input)).mapError .bytecode, w.logged events) := by
  unfold compareInput creationResult
  cases hlink : link creation (normalize input) with
  | error e => exact ⟨_, Session.bind_of_error (linkAloud_of_error hlink) _⟩
  | ok linked =>
    rw [Session.bind_of_ok (linkAloud_of_ok hlink)]
    dsimp only
    split
    · exact ⟨_, by rw [Session.log_bind_apply, World.logged_logged]; rfl⟩
    · exact ⟨_, rfl⟩

/-- What the client tells when it is asked for the creation code. -/
def told (client : ChainClient ν) (chain : Nat) (address : String) (o : Outside ν) (w : World ν) :
    Except ChainError String :=
  (client.creationCode chain address o { w.logged [undecidedEvent] with
    effects := w.effects ++ [.creationCode chain address] }).1

private theorem compareCreation_run (creation : List Char) :
    (compareCreation client chain address creation o w).2.effects
        = w.effects ++ [.creationCode chain address] ∧
      (compareCreation client chain address creation o w).1
        = match told client chain address o w with
          | .error e => .error (.chain e)
          | .ok input => (creationResult creation (normalize input)).mapError .bytecode := by
  have hstart : compareCreation client chain address creation o w
      = ((client.askCreation chain address).mapError .chain >>= compareInput creation) o
          (w.logged [undecidedEvent]) := rfl
  have htold : told client chain address o w
      = (client.askCreation chain address o (w.logged [undecidedEvent])).1 :=
    (Session.delegate_fst _ _).symm
  have heffects : (client.askCreation chain address o (w.logged [undecidedEvent])).2.effects
      = w.effects ++ [.creationCode chain address] := Session.effects_delegate _ _
  rw [hstart, htold]
  -- from here on only what the client answered and its world matter
  rcases hasked : client.askCreation chain address o (w.logged [undecidedEvent]) with ⟨answer, w'⟩
  rw [hasked] at heffects
  cases answer with
  | error e =>
    have hfail : (client.askCreation chain address).mapError VerifierError.chain o
        (w.logged [undecidedEvent]) = (.error (.chain e), w') := by
      rw [Session.mapError_apply, hasked]
      rfl
    rw [Session.bind_of_error hfail]
    exact ⟨heffects, rfl⟩
  | ok input =>
    have hanswer : (client.askCreation chain address).mapError VerifierError.chain o
        (w.logged [undecidedEvent]) = (.ok input, w') := by
      rw [Session.mapError_apply, hasked]
      rfl
    obtain ⟨events, hinput⟩ := @compareInput_apply ν o w' creation input
    rw [Session.bind_of_ok hanswer, hinput]
    exact ⟨heffects, rfl⟩

/-- Comparing creation code asks for the input, and fails if the input is not told. -/
theorem compareCreation_fst (creation : List Char) :
    (compareCreation client chain address creation o w).1
      = match told client chain address o w with
        | .error e => .error (.chain e)
        | .ok input => (creationResult creation (normalize input)).mapError .bytecode :=
  (compareCreation_run creation).2

/-- Comparing creation code asks once. -/
theorem effects_compareCreation (creation : List Char) :
    (compareCreation client chain address creation o w).2.effects
      = w.effects ++ [.creationCode chain address] :=
  (compareCreation_run creation).1

variable {status : Status} {e : LinkError}

/-- A comparison fails as linking fails. -/
theorem compare_of_error
    (h : conclusion? (normalize artifact.deployed) (normalize artifact.creation) (normalize onChain)
      = .error e) :
    ∃ events, compare client chain address onChain artifact o w
      = (.error (.bytecode e), w.logged events) := by
  unfold conclusion? at h
  cases hlink : link (normalize artifact.deployed) (normalize onChain) with
  | error e' =>
    rw [hlink] at h
    obtain rfl : e' = e := Except.error.inj h
    rw [compare, Session.bind_of_error (linkAloud_of_error hlink)]
    exact ⟨_, rfl⟩
  | ok linked =>
    rw [hlink] at h
    cases h

/-- A comparison ends with the status that follows from the deployed codes. -/
theorem compare_of_status
    (h : conclusion? (normalize artifact.deployed) (normalize artifact.creation) (normalize onChain)
      = .ok (some status)) :
    ∃ events, compare client chain address onChain artifact o w
      = (.ok (.plain status), w.logged events) := by
  obtain ⟨linked, hlink, hstatus⟩ := conclusion?_eq_ok_iff.1 h
  rw [compare, Session.bind_of_ok (linkAloud_of_ok hlink)]
  -- each likeness has a branch of its own, which logs at most one more event
  cases hlike : likeness linked (normalize onChain) with
  | equal =>
    obtain rfl : Status.perfect = status := by simpa [hlike, Likeness.status?] using hstatus
    exact ⟨_, by simp only [Session.log_bind_apply, World.logged_logged]; rfl⟩
  | equalBodies =>
    obtain rfl : Status.partially = status := by simpa [hlike, Likeness.status?] using hstatus
    exact ⟨_, by simp only [Session.log_bind_apply, World.logged_logged]; rfl⟩
  | differentLengths compiled found =>
    obtain rfl : Status.mismatch = status := by simpa [hlike, Likeness.status?] using hstatus
    exact ⟨_, by simp only [Session.log_bind_apply, World.logged_logged]; rfl⟩
  | differentContents =>
    by_cases hcreation : (normalize artifact.creation).isEmpty = true
    · obtain rfl : Status.mismatch = status := by
        simpa [hlike, Likeness.status?, hcreation] using hstatus
      exact ⟨_, by simp only [if_pos hcreation]; rfl⟩
    · simp [hlike, Likeness.status?, hcreation] at hstatus

/-- A comparison that cannot conclude from the deployed codes compares the creation code. -/
theorem compare_of_undecided
    (h : Undecided (normalize artifact.deployed) (normalize artifact.creation)
      (normalize onChain)) :
    compare client chain address onChain artifact o w
      = compareCreation client chain address (normalize artifact.creation) o
          (w.logged ((scan (normalize artifact.deployed) (normalize onChain)).1.map
            Resolved.event)) := by
  obtain ⟨linked, hlink, hdiff, hbodies, hlen, hcreation⟩ := h
  rw [compare, Session.bind_of_ok (linkAloud_of_ok hlink)]
  simp only [likeness_eq_differentContents_iff.2 ⟨hdiff, hbodies, hlen⟩]
  rw [if_neg (by simpa using hcreation)]

variable (o w client chain address onChain artifact) in
/-- A comparison fails as linking fails, or it ends with the status that follows from the deployed codes, or
nothing follows from these. -/
theorem compare_cases :
    (∃ e events, conclusion? (normalize artifact.deployed) (normalize artifact.creation) (normalize onChain)
        = .error e ∧
      compare client chain address onChain artifact o w = (.error (.bytecode e), w.logged events)) ∨
    (∃ status events, conclusion? (normalize artifact.deployed) (normalize artifact.creation)
        (normalize onChain) = .ok (some status) ∧
      compare client chain address onChain artifact o w = (.ok (.plain status), w.logged events)) ∨
    Undecided (normalize artifact.deployed) (normalize artifact.creation) (normalize onChain) := by
  cases hc : conclusion? (normalize artifact.deployed) (normalize artifact.creation)
      (normalize onChain) with
  | error e =>
    obtain ⟨events, hresult⟩ := @compare_of_error ν o w client chain address _ _ _ hc
    exact .inl ⟨e, events, rfl, hresult⟩
  | ok found =>
    cases found with
    | none => exact .inr (.inr (conclusion?_eq_none_iff.1 hc))
    | some status =>
      obtain ⟨events, hresult⟩ := @compare_of_status ν o w client chain address _ _ _ hc
      exact .inr (.inl ⟨status, events, rfl, hresult⟩)

/-! ## Results and questions -/

/-- A session ended with a verdict of some status. -/
def EndsWith (result : Except VerifierError Verdict) (status : Status) : Prop :=
  ∃ v, result = .ok v ∧ v.status = status

@[simp] theorem endsWith_plain {s s' : Status} : EndsWith (.ok (.plain s)) s' ↔ s = s' := by
  constructor
  · intro h
    obtain ⟨v, hv, hstatus⟩ := h
    rw [← hstatus, ← Except.ok.inj hv, Verdict.plain]
  · intro h
    exact ⟨.plain s, rfl, h⟩

@[simp] theorem not_endsWith_error {e : VerifierError} : ¬ EndsWith (.error e) status := by
  intro h
  obtain ⟨v, hv, -⟩ := h
  cases hv

/-- The creation code never tells that two codes are equal but for their trailers. -/
private theorem compareCreation_not_partially (creation : List Char) :
    ¬ EndsWith (compareCreation client chain address creation o w).1 .partially := by
  rw [compareCreation_fst]
  cases told client chain address o w with
  | error e => exact not_endsWith_error
  | ok input =>
    show ¬ EndsWith ((creationResult creation (normalize input)).mapError .bytecode) _
    unfold creationResult
    cases link creation (normalize input) with
    | error e => exact not_endsWith_error
    | ok linked =>
      show ¬ EndsWith (.ok (creationVerdict linked (normalize input))) _
      unfold creationVerdict
      intro h
      obtain ⟨v, hv, hstatus⟩ := h
      rw [← Except.ok.inj hv] at hstatus
      split at hstatus <;> cases hstatus

/-- A comparison asks for the creation code exactly when nothing follows from the deployed codes, and
then only once. -/
theorem effects_compare :
    (Undecided (normalize artifact.deployed) (normalize artifact.creation) (normalize onChain) ∧
        (compare client chain address onChain artifact o w).2.effects
          = w.effects ++ [.creationCode chain address]) ∨
      (¬ Undecided (normalize artifact.deployed) (normalize artifact.creation)
          (normalize onChain) ∧
        (compare client chain address onChain artifact o w).2.effects = w.effects) := by
  rcases compare_cases o w client chain address onChain artifact with
    ⟨e, events, hc, hresult⟩ | ⟨status, events, hc, hresult⟩ | hun
  · refine .inr ⟨?_, by rw [hresult, World.effects_logged]⟩
    rw [← conclusion?_eq_none_iff, hc]
    nofun
  · refine .inr ⟨?_, by rw [hresult, World.effects_logged]⟩
    rw [← conclusion?_eq_none_iff, hc]
    nofun
  · refine .inl ⟨hun, ?_⟩
    rw [compare_of_undecided hun, effects_compareCreation, World.effects_logged]

/-- Without a question a comparison ends with a status exactly when it follows from the deployed
codes. -/
theorem endsWith_unasked_iff :
    (EndsWith (compare client chain address onChain artifact o w).1 status ∧
        (compare client chain address onChain artifact o w).2.effects = w.effects) ↔
      conclusion? (normalize artifact.deployed) (normalize artifact.creation) (normalize onChain)
        = .ok (some status) := by
  rcases compare_cases o w client chain address onChain artifact with
    ⟨e, events, hc, hresult⟩ | ⟨found, events, hc, hresult⟩ | hun
  · simp [hc, hresult]
  · simp [hc, hresult]
  · rw [conclusion?_eq_none_iff.2 hun, compare_of_undecided hun, effects_compareCreation]
    simp

/-- Codes that are equal but for their trailers are found without a question. -/
theorem endsWith_partially_iff :
    EndsWith (compare client chain address onChain artifact o w).1 .partially ↔
      ∃ linked, link (normalize artifact.deployed) (normalize onChain) = .ok linked ∧
        linked ≠ normalize onChain ∧ stripTrailer linked = stripTrailer (normalize onChain) := by
  rw [← @conclusion?_eq_partially_iff _ (normalize artifact.creation),
    ← @endsWith_unasked_iff ν o w client chain address]
  constructor
  · intro h
    refine ⟨h, ?_⟩
    -- a verdict that needed the creation code is another one
    rcases @effects_compare ν o w client chain address onChain artifact with
      ⟨hun, -⟩ | ⟨-, heffects⟩
    · rw [compare_of_undecided hun] at h
      exact absurd h (compareCreation_not_partially _)
    · exact heffects
  · intro h
    exact h.1

end

end Provenance.Bytecode
