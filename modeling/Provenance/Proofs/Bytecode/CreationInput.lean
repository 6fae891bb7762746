import Provenance.Proofs.Bytecode.Comparison

/-!
# The creation input

The input that created a contract is its creation code followed by the arguments of its constructor.
When the deployed codes leave a comparison undecided, the input decides it (`creation_input_decides`).
-/

namespace Provenance.Bytecode

open Text

/-! ## Arguments -/

/-- What follows the creation code at the start of the input are the arguments. -/
theorem argumentsAfter_append {compiled : List Char} (h : compiled ≠ []) (rest : List Char) :
    argumentsAfter (compiled ++ rest) compiled = if rest = [] then [] else Hex.mark ++ rest := by
  have hfind : find? compiled (compiled ++ rest) = some 0 :=
    find?_eq_some_iff.2 ⟨[], rest, rfl, rfl, clean_nil _ _⟩
  have hdrop : drop? (0 + byteLength compiled) (compiled ++ rest) = some rest :=
    drop?_eq_some_iff.2 ⟨compiled, rfl, (Nat.zero_add _).symm⟩
  have hempty : compiled.isEmpty = false := by simpa using h
  unfold argumentsAfter
  simp only [hempty, Bool.false_eq_true, if_false, hfind, hdrop]
  cases rest with
  | nil => rfl
  | cons c rest => rfl

/-- The verdict on an input that the linked creation code begins. -/
theorem creationVerdict_append {linked : List Char} (h : linked ≠ []) (rest : List Char) :
    creationVerdict linked (linked ++ rest)
      = ⟨.perfect, if rest = [] then none else some (String.ofList (Hex.mark ++ rest))⟩ := by
  have hpre : linked.isPrefixOf (linked ++ rest) = true :=
    List.isPrefixOf_iff_prefix.2 (List.prefix_append _ _)
  rw [creationVerdict, if_pos hpre, argumentsAfter_append h, Verdict.created]
  cases rest with
  | nil => rfl
  | cons c rest => rfl

/-- The verdict on any other input. -/
theorem creationVerdict_of_not_append {linked input : List Char}
    (h : ∀ rest, input ≠ linked ++ rest) : creationVerdict linked input = .plain .mismatch := by
  have hpre : ¬ linked.isPrefixOf input = true := by
    intro hpre
    obtain ⟨rest, hrest⟩ := List.isPrefixOf_iff_prefix.1 hpre
    exact h rest hrest.symm
  rw [creationVerdict, if_neg hpre]

/-- Only what follows the creation code in an input is told as arguments. -/
theorem creationVerdict_arguments {linked input : List Char} {arguments : String}
    (h : (creationVerdict linked input).arguments = some arguments) :
    (creationVerdict linked input).status = .perfect ∧
      ∃ rest, rest ≠ [] ∧ input = linked ++ rest ∧ arguments = String.ofList (Hex.mark ++ rest) := by
  by_cases hbegins : ∃ rest, input = linked ++ rest
  · obtain ⟨rest, rfl⟩ := hbegins
    by_cases hlinked : linked = []
    · subst hlinked
      cases h
    · rw [creationVerdict_append hlinked] at h ⊢
      by_cases hrest : rest = []
      · simp [hrest] at h
      · rw [if_neg hrest] at h
        exact ⟨rfl, rest, hrest, rfl, (Option.some.inj h).symm⟩
  · rw [creationVerdict_of_not_append fun rest hrest => hbegins ⟨rest, hrest⟩] at h
    cases h

/-! ## Decisions -/

variable {c : Template} {input : List Char}

/-- The creation code, with some addresses for its tokens, begins the input. -/
def Begins (c : Template) (input : List Char) : Prop :=
  ∃ σ rest, input = c.linked σ ++ rest

/-- What an input decides about creation code. -/
structure Decides (c : Template) (input : List Char) (result : Except VerifierError Verdict) :
    Prop where
  perfect_iff : EndsWith result .perfect ↔ Begins c input
  /-- The arguments are what follows the creation code. -/
  arguments : ∀ σ rest, input = c.linked σ ++ rest →
    result = .ok ⟨.perfect, if rest = [] then none else some (String.ofList (Hex.mark ++ rest))⟩
  otherwise : ¬ Begins c input → result = .ok (.plain .mismatch) ∨
    ∃ pre u, c.First pre u ∧ input.length < pre.width + placeholderWidth ∧
      result = .error (.bytecode (.outOfRange u.code pre.width input.length))
  /-- It is an error exactly when the input ends before the first place of some token does. -/
  outOfRange_iff :
    (∃ placeholder offset length,
        result = .error (.bytecode (.outOfRange placeholder offset length))) ↔
      ∃ pre u, c.First pre u ∧ input.length < pre.width + placeholderWidth

/-- An input that the creation code begins. -/
private theorem creationResult_append (hc : c ≠ []) (σ : Token → Digits) (rest : List Char) :
    creationResult c.code (c.linked σ ++ rest)
      = .ok ⟨.perfect, if rest = [] then none else some (String.ofList (Hex.mark ++ rest))⟩ := by
  have hlinked : c.linked σ ≠ [] := by
    intro h
    have hwidth : byteLength (c.linked σ) = 0 := by rw [h, byteLength_nil]
    rw [Template.byteLength_linked] at hwidth
    cases c with
    | nil => exact hc rfl
    | cons x c => cases x <;> simp [Template.width, Symbol.width, placeholderWidth] at hwidth
  rw [creationResult, link_of_agrees (c.agrees_linked_append σ rest), Except.map,
    creationVerdict_append hlinked]

private theorem arguments_creationResult (hc : c ≠ []) (σ : Token → Digits) (rest : List Char)
    (h : input = c.linked σ ++ rest) :
    (creationResult c.code input).mapError VerifierError.bytecode
      = .ok ⟨.perfect, if rest = [] then none else some (String.ofList (Hex.mark ++ rest))⟩ := by
  rw [h, creationResult_append hc]
  rfl

private theorem perfect_creationResult (hc : c ≠ []) (h : Begins c input) :
    EndsWith ((creationResult c.code input).mapError .bytecode) .perfect := by
  obtain ⟨σ, rest, hinput⟩ := h
  exact ⟨_, arguments_creationResult hc σ rest hinput, rfl⟩

/-- The input is long enough for all addresses, so that the creation code is linked. -/
private theorem decides_of_agrees {σ : Token → Digits} (hc : c ≠ []) (hσ : c.Agrees input σ)
    (hlong : ∀ pre u, c.First pre u → pre.width + placeholderWidth ≤ input.length) :
    Decides c input ((creationResult c.code input).mapError .bytecode) := by
  have hresult : (creationResult c.code input).mapError VerifierError.bytecode
      = .ok (creationVerdict (c.linked σ) input) := by
    rw [creationResult, link_of_agrees hσ]
    rfl
  have hmismatch : ¬ Begins c input →
      (creationResult c.code input).mapError VerifierError.bytecode = .ok (.plain .mismatch) := by
    intro h
    rw [hresult, creationVerdict_of_not_append]
    intro rest hrest
    exact h ⟨σ, rest, hrest⟩
  refine ⟨⟨?_, perfect_creationResult hc⟩, arguments_creationResult hc, ?_, ?_⟩
  · intro h
    -- there is a verdict, and if it is not a mismatch then the code begins the input
    by_cases hbegins : Begins c input
    · exact hbegins
    · rw [hmismatch hbegins, endsWith_plain] at h
      cases h
  · intro h
    exact .inl (hmismatch h)
  · rw [hresult]
    constructor
    · intro h
      obtain ⟨_, _, _, herror⟩ := h
      cases herror
    · intro h
      obtain ⟨pre, u, hfirst, hshort⟩ := h
      exact absurd (hlong pre u hfirst) (Nat.not_le_of_lt hshort)

/-- What an input of digits decides about creation code that is not empty. -/
theorem decides_creationResult (hc : c ≠ []) (hd : input.all Hex.isDigit = true) :
    Decides c input ((creationResult c.code input).mapError .bytecode) := by
  rcases @link_of_digits_cases c input hd with ⟨⟨σ, hσ⟩, hlong⟩ | ⟨pre, u, hfirst, hshort, hlink⟩
  · exact decides_of_agrees hc hσ hlong
  · have hresult : (creationResult c.code input).mapError VerifierError.bytecode
        = .error (.bytecode (.outOfRange u.code pre.width input.length)) := by
      rw [creationResult, hlink]
      rfl
    refine ⟨⟨?_, perfect_creationResult hc⟩, arguments_creationResult hc, ?_, ?_⟩
    · intro h
      rw [hresult] at h
      exact absurd h not_endsWith_error
    · intro _
      exact .inr ⟨pre, u, hfirst, hshort, hresult⟩
    · exact ⟨fun _ => ⟨pre, u, hfirst, hshort⟩, fun _ => ⟨_, _, _, hresult⟩⟩

variable {ν : Type} {o : Outside ν} {w : World ν} {client : ChainClient ν} {chain : Nat}
  {address onChain : String} {artifact : Artifact}

/-- A comparison tells arguments only with a perfect match, and only what follows the linked creation code in
the input that it was told. -/
theorem compare_arguments {verdict : Verdict} {arguments : String}
    (h : (compare client chain address onChain artifact o w).1 = .ok verdict)
    (harguments : verdict.arguments = some arguments) :
    verdict.status = .perfect ∧
      (compare client chain address onChain artifact o w).2.effects
        = w.effects ++ [.creationCode chain address] ∧
      ∃ input linked rest, told client chain address o (w.logged
          ((scan (normalize artifact.deployed) (normalize onChain)).1.map Resolved.event)) = .ok input ∧
        link (normalize artifact.creation) (normalize input) = .ok linked ∧ rest ≠ [] ∧
        normalize input = linked ++ rest ∧ arguments = String.ofList (Hex.mark ++ rest) := by
  rcases compare_cases o w client chain address onChain artifact with
    ⟨e, events, -, hresult⟩ | ⟨status, events, -, hresult⟩ | hun
  · rw [hresult] at h
    cases h
  · -- without a question there are none
    rw [hresult] at h
    cases h
    cases harguments
  · have heffects : (compare client chain address onChain artifact o w).2.effects
        = w.effects ++ [.creationCode chain address] := by
      rw [compare_of_undecided hun, effects_compareCreation, World.effects_logged]
    rw [compare_of_undecided hun, compareCreation_fst] at h
    cases htold : told client chain address o (w.logged
      ((scan (normalize artifact.deployed) (normalize onChain)).1.map Resolved.event)) with
    | error e =>
      rw [htold] at h
      cases h
    | ok input =>
      rw [htold] at h
      have hresult := mapError_eq_ok_iff.1 h
      unfold creationResult at hresult
      cases hlink : link (normalize artifact.creation) (normalize input) with
      | error e =>
        rw [hlink] at hresult
        cases hresult
      | ok linked =>
        rw [hlink] at hresult
        obtain rfl : creationVerdict linked (normalize input) = verdict := Except.ok.inj hresult
        obtain ⟨hperfect, rest, hrest, hinput, htext⟩ := creationVerdict_arguments harguments
        exact ⟨hperfect, heffects, input, linked, rest, rfl, hlink, hrest, hinput, htext⟩

/-- A comparison asks for the creation code at most once, exactly when the deployed codes leave it
undecided, and then the input decides. -/
theorem creation_input_decides (hcreation : normalize artifact.creation = c.code) :
    ((compare client chain address onChain artifact o w).2.effects = w.effects ∨
        (compare client chain address onChain artifact o w).2.effects
          = w.effects ++ [.creationCode chain address]) ∧
      ((compare client chain address onChain artifact o w).2.effects
          = w.effects ++ [.creationCode chain address] ↔
        Undecided (normalize artifact.deployed) (normalize artifact.creation)
          (normalize onChain)) ∧
      ∀ reply, Undecided (normalize artifact.deployed) (normalize artifact.creation)
          (normalize onChain) →
        told client chain address o (w.logged
          ((scan (normalize artifact.deployed) (normalize onChain)).1.map Resolved.event))
          = .ok reply →
        (normalize reply).all Hex.isDigit = true →
        Decides c (normalize reply) (compare client chain address onChain artifact o w).1 := by
  refine ⟨?_, ?_, ?_⟩
  · rcases @effects_compare ν o w client chain address onChain artifact with ⟨-, h⟩ | ⟨-, h⟩
    · exact .inr h
    · exact .inl h
  · rcases @effects_compare ν o w client chain address onChain artifact with ⟨hun, h⟩ | ⟨hun, h⟩
    · exact ⟨fun _ => hun, fun _ => h⟩
    · rw [h]
      constructor
      · intro heffects
        simp at heffects
      · intro hun'
        exact absurd hun' hun
  · intro reply hun htold hd
    -- no question is asked for empty creation code
    have hc : c ≠ [] := by
      obtain ⟨-, -, -, -, -, hsome⟩ := hun
      intro hnil
      rw [hcreation, hnil] at hsome
      exact hsome rfl
    rw [compare_of_undecided hun, compareCreation_fst, htold, hcreation]
    exact decides_creationResult hc hd

/-- Creation code with a token, and a byte of arguments. -/
theorem creation_input_decides_arguments :
    let c : Template := [.digit '6' rfl, .token (.repeating 'b' rfl)]
    let address := Digits.repeating '1' rfl
    let reply := String.ofList (Hex.mark ++ ('6' :: address.text ++ ['f', 'f']))
    let artifact : Artifact := ⟨[], String.ofList c.code, "60aa"⟩
    ∃ result, result = compare (.telling reply) 1 "0x" "60bb" artifact .idle .blank ∧
      result.1 = .ok ⟨.perfect, some (String.ofList ['0', 'x', 'f', 'f'])⟩ ∧
      result.2.effects = World.blank.effects ++ [.creationCode 1 "0x"] := by
  intro c address reply artifact
  have hcreation : normalize artifact.creation = c.code := by
    rw [normalize_ofList]
    decide
  have hun : Undecided (normalize artifact.deployed) (normalize artifact.creation)
      (normalize "60bb") := by
    have hdigits : (normalize artifact.deployed).all Hex.isDigit = true := by decide
    refine ⟨_, link_of_digits hdigits _, ?_⟩
    rw [hcreation]
    decide
  have hinput : normalize reply = c.linked (fun _ => address) ++ ['f', 'f'] := by
    rw [normalize_ofList]
    decide
  have hd : (normalize reply).all Hex.isDigit = true := by
    rw [hinput]
    decide
  obtain ⟨-, hasked, hdecides⟩ := @creation_input_decides c Unit .idle .blank (.telling reply) 1 "0x"
    "60bb" artifact hcreation
  exact ⟨_, rfl, (hdecides reply hun rfl hd).arguments _ _ hinput, hasked.2 hun⟩

end Provenance.Bytecode
