import Provenance.Proofs.Address
import Provenance.Proofs.Bytecode.CreationInput

/-!
# Spellings

A code may be written in small letters or capitals, with the mark or without, and with blanks around it. All
spellings of a code are normalized alike, and no other text is (`spells_iff`), so that a comparison cannot tell
one spelling from another (`compare_of_respelled`).
-/

namespace Provenance

namespace Text

/-- A text without blanks is left alone by trimming. -/
theorem trim_of_not_blank {cs : List Char} (h : ∀ c ∈ cs, isBlank c = false) : trim cs = cs := by
  have hkept : ∀ xs : List Char, (∀ c ∈ xs, isBlank c = false) → xs.dropWhile isBlank = xs := by
    intro xs hxs
    cases xs with
    | nil => rfl
    | cons c xs => rw [List.dropWhile_cons_of_neg (by simp [hxs c List.mem_cons_self])]
  have hback : ∀ c ∈ cs.reverse, isBlank c = false := fun c hc => h c (List.mem_reverse.1 hc)
  rw [trim, trimWhile, trimEndWhile, hkept cs h, hkept _ hback, List.reverse_reverse]

/-- What trimming takes away are blanks around what it leaves. -/
theorem exists_append_trim (cs : List Char) :
    ∃ before after, before.all isBlank = true ∧ after.all isBlank = true ∧
      cs = before ++ (trim cs ++ after) := by
  refine ⟨cs.takeWhile isBlank, ((cs.dropWhile isBlank).reverse.takeWhile isBlank).reverse,
    List.all_takeWhile, ?_, ?_⟩
  · rw [List.all_reverse]
    exact List.all_takeWhile
  · rw [trim, trimWhile, trimEndWhile, ← List.reverse_append, List.takeWhile_append_dropWhile,
      List.reverse_reverse, List.takeWhile_append_dropWhile]

end Text

namespace Bytecode

open Text

/-! ## Spellings of a code -/

/-- Whether a character is a digit or one of those that are in placeholders besides digits. -/
def isCodeCharacter (c : Char) : Bool := Hex.isDigit c || c = '_' || c = '$'

/-- A text is a code up to letter case, with the mark or without, and with blanks around it. -/
def Spells (text : String) (code : List Char) : Prop :=
  ∃ before mark body after, before.all isBlank = true ∧ after.all isBlank = true ∧
    (mark = [] ∨ mark = Hex.mark) ∧ asciiLowercase body = asciiLowercase code ∧
    text.toList = before ++ ((mark ++ body) ++ after)

variable {text : String} {code : List Char}

theorem isCodeCharacter_iff {c : Char} :
    isCodeCharacter c = true ↔ Hex.isDigit c = true ∨ c.toNat = 95 ∨ c.toNat = 36 := by
  have hunderscore : c = '_' ↔ c.toNat = 95 := Char.toNat_inj.symm
  have hdollar : c = '$' ↔ c.toNat = 36 := Char.toNat_inj.symm
  simp only [isCodeCharacter, Bool.or_eq_true, decide_eq_true_eq, or_assoc, hunderscore, hdollar]

theorem all_isCodeCharacter_of_digits (h : code.all Hex.isDigit = true) :
    code.all isCodeCharacter = true :=
  List.all_eq_true.2 fun c hc => isCodeCharacter_iff.2 (.inl (List.all_eq_true.1 h c hc))

theorem not_isBlank_of_isCodeCharacter {c : Char} (h : isCodeCharacter c = true) : isBlank c = false := by
  rcases isCodeCharacter_iff.1 h with hdigit | hcode
  · exact Hex.not_isBlank_of_isDigit hdigit
  · simp only [isBlank, Bool.or_eq_false_iff, Bool.and_eq_false_iff, decide_eq_false_iff_not]
    omega

/-- Letter case does not make a character one of a code, nor unmake one. -/
theorem isCodeCharacter_toLower (c : Char) : isCodeCharacter c.toLower = isCodeCharacter c := by
  have hother : c.toLower.toNat = 95 ∨ c.toLower.toNat = 36 ↔ c.toNat = 95 ∨ c.toNat = 36 := by
    rw [toNat_toLower]
    split <;> omega
  rw [Bool.eq_iff_iff, isCodeCharacter_iff, isCodeCharacter_iff, Hex.isDigit_toLower, hother]

theorem all_isCodeCharacter_asciiLowercase (cs : List Char) :
    (asciiLowercase cs).all isCodeCharacter = cs.all isCodeCharacter := by
  have hcase : isCodeCharacter ∘ Char.toLower = isCodeCharacter := funext isCodeCharacter_toLower
  rw [asciiLowercase, List.all_map, hcase]

/-- No code begins with the mark. -/
theorem bare_of_code (h : code.all isCodeCharacter = true) : Hex.bare code = code := by
  unfold Hex.bare
  split
  · next rest =>
    -- the letter of the mark is not in codes
    have hx : isCodeCharacter 'x' = true := List.all_eq_true.1 h 'x' (by simp)
    exact absurd hx (by decide)
  · rfl

/-- Blanks and the mark around a code are taken away. -/
theorem normalize_of_spells (hcode : code.all isCodeCharacter = true) (h : Spells text code) :
    normalize text = asciiLowercase code := by
  obtain ⟨before, mark, body, after, hbefore, hafter, hmark, hbody, htext⟩ := h
  have hall : body.all isCodeCharacter = true := by
    rw [← all_isCodeCharacter_asciiLowercase, hbody, all_isCodeCharacter_asciiLowercase, hcode]
  have hfull : ∀ c ∈ mark ++ body, isBlank c = false := by
    intro c hc
    rcases List.mem_append.1 hc with hc | hc
    · rcases hmark with rfl | rfl
      · exact absurd hc List.not_mem_nil
      · have hblank : Hex.mark.all (!isBlank ·) = true := by decide +kernel
        simpa using List.all_eq_true.1 hblank c hc
    · exact not_isBlank_of_isCodeCharacter (List.all_eq_true.1 hall c hc)
  have htrim : trim text.toList = mark ++ body := by
    rw [htext, trim_append (List.all_eq_true.1 hbefore) (List.all_eq_true.1 hafter),
      trim_of_not_blank hfull]
  have hbare : Hex.bare (mark ++ body) = body := by
    rcases hmark with rfl | rfl
    · exact bare_of_code hall
    · rfl
  rw [normalize, htrim, hbare, hbody]

/-- A text that begins with the mark is the mark and the rest, and any other is its own rest. -/
theorem exists_append_bare (cs : List Char) :
    ∃ mark, (mark = [] ∨ mark = Hex.mark) ∧ cs = mark ++ Hex.bare cs := by
  unfold Hex.bare
  split
  · exact ⟨Hex.mark, .inr rfl, rfl⟩
  · exact ⟨[], .inl rfl, rfl⟩

/-- The spellings of a code are the texts that are normalized to its small letters. -/
theorem spells_iff (hcode : code.all isCodeCharacter = true) :
    Spells text code ↔ normalize text = asciiLowercase code := by
  constructor
  · exact normalize_of_spells hcode
  · intro h
    obtain ⟨before, after, hbefore, hafter, htext⟩ := exists_append_trim text.toList
    obtain ⟨mark, hmark, hcore⟩ := exists_append_bare (trim text.toList)
    exact ⟨before, mark, _, after, hbefore, hafter, hmark, h, by rw [← hcore]; exact htext⟩

-- the mark is written with a small letter
example : ¬ Spells "0X60" ['6', '0'] := by
  rw [spells_iff (by decide)]
  decide

/-! ## Comparisons of spellings -/

/-- Two answers of clients: spellings of one input, which is of digits, or one error. -/
inductive SameAnswer : (answer answer' : Except ChainError String) → Prop where
  | error (e : ChainError) : SameAnswer (.error e) (.error e)
  | told {input input' : String} {code : List Char} (digits : code.all Hex.isDigit = true)
    (spells : Spells input code) (spells' : Spells input' code) : SameAnswer (.ok input) (.ok input')

variable {ν : Type} {o : Outside ν} {w : World ν} {client client' : ChainClient ν} {chain : Nat}
  {address onChain onChain' : String} {artifact artifact' : Artifact}

/-- A comparison looks at normalized codes only. -/
theorem compare_of_normalize (hactual : normalize onChain' = normalize onChain)
    (hdeployed : normalize artifact'.deployed = normalize artifact.deployed)
    (hcreation : normalize artifact'.creation = normalize artifact.creation) :
    compare client chain address onChain' artifact' = compare client chain address onChain artifact := by
  unfold compare
  rw [hactual, hdeployed, hcreation]

/-- Creation code is compared with one result with all spellings of an input. -/
theorem compareCreation_of_sameAnswer {creation : List Char}
    (h : SameAnswer (told client chain address o w) (told client' chain address o w)) :
    (compareCreation client' chain address creation o w).1
      = (compareCreation client chain address creation o w).1 := by
  rw [compareCreation_fst, compareCreation_fst]
  generalize told client chain address o w = answer at h
  generalize told client' chain address o w = answer' at h
  cases h with
  | error e => rfl
  | @told input input' code digits spells spells' =>
    have hcode : code.all isCodeCharacter = true := all_isCodeCharacter_of_digits digits
    show (creationResult creation (normalize input')).mapError VerifierError.bytecode
      = (creationResult creation (normalize input)).mapError VerifierError.bytecode
    rw [normalize_of_spells hcode spells, normalize_of_spells hcode spells']

/-- A comparison asks alike, and has one result, with all clients that tell spellings of one input. -/
theorem compare_of_sameAnswer
    (h : SameAnswer
      (told client chain address o (w.logged
        ((scan (normalize artifact.deployed) (normalize onChain)).1.map Resolved.event)))
      (told client' chain address o (w.logged
        ((scan (normalize artifact.deployed) (normalize onChain)).1.map Resolved.event)))) :
    (compare client' chain address onChain artifact o w).1
        = (compare client chain address onChain artifact o w).1 ∧
      (compare client' chain address onChain artifact o w).2.effects
        = (compare client chain address onChain artifact o w).2.effects := by
  rcases compare_cases o w client chain address onChain artifact with
    ⟨e, events, hc, hresult⟩ | ⟨status, events, hc, hresult⟩ | hun
  · obtain ⟨events', hresult'⟩ := @compare_of_error ν o w client' chain address _ _ _ hc
    rw [hresult, hresult', World.effects_logged, World.effects_logged]
    exact ⟨rfl, rfl⟩
  · obtain ⟨events', hresult'⟩ := @compare_of_status ν o w client' chain address _ _ _ hc
    rw [hresult, hresult', World.effects_logged, World.effects_logged]
    exact ⟨rfl, rfl⟩
  · -- only here the clients are asked
    rw [compare_of_undecided hun, compare_of_undecided hun, effects_compareCreation,
      effects_compareCreation]
    exact ⟨compareCreation_of_sameAnswer h, rfl⟩

/-- The arguments that are told after an input of digits are the mark and digits in small letters. -/
theorem arguments_of_sameAnswer {answer : Except ChainError String} {verdict : Verdict}
    {arguments : String}
    (h : SameAnswer (told client chain address o (w.logged
      ((scan (normalize artifact.deployed) (normalize onChain)).1.map Resolved.event))) answer)
    (hresult : (compare client chain address onChain artifact o w).1 = .ok verdict)
    (harguments : verdict.arguments = some arguments) :
    ∃ digits, digits ≠ [] ∧ digits.all Hex.isDigit = true ∧ asciiLowercase digits = digits ∧
      arguments = String.ofList (Hex.mark ++ digits) := by
  obtain ⟨-, -, input, linked, rest, htold, -, hrest, hinput, htext⟩ :=
    compare_arguments hresult harguments
  rw [htold] at h
  cases h with
  | @told _ _ code digits spells =>
    rw [normalize_of_spells (all_isCodeCharacter_of_digits digits) spells] at hinput
    have hdigits : (linked ++ rest).all Hex.isDigit = true := by
      have hcase : Hex.isDigit ∘ Char.toLower = Hex.isDigit := funext Hex.isDigit_toLower
      rw [← hinput, asciiLowercase, List.all_map, hcase, digits]
    have hsmall : asciiLowercase linked ++ asciiLowercase rest = linked ++ rest := by
      calc asciiLowercase linked ++ asciiLowercase rest = asciiLowercase (linked ++ rest) :=
            List.map_append.symm
        _ = linked ++ rest := by rw [← hinput, asciiLowercase_asciiLowercase]
    have hlength : (asciiLowercase linked).length = linked.length := List.length_map _
    rw [List.all_append, Bool.and_eq_true] at hdigits
    exact ⟨rest, hrest, hdigits.2, (List.append_inj hsmall hlength).2, htext⟩

/-- Comparisons of two spellings of the codes, with clients that tell two spellings of the input, have one
result and ask alike. Arguments are told in one spelling only. -/
theorem compare_of_respelled {actual deployed creation : List Char}
    (hactual : actual.all Hex.isDigit = true) (hdeployed : deployed.all isCodeCharacter = true)
    (hcreation : creation.all isCodeCharacter = true)
    (honChain : Spells onChain actual) (honChain' : Spells onChain' actual)
    (htemplate : Spells artifact.deployed deployed) (htemplate' : Spells artifact'.deployed deployed)
    (hcode : Spells artifact.creation creation) (hcode' : Spells artifact'.creation creation)
    (hanswer : SameAnswer
      (told client chain address o (w.logged
        ((scan (normalize artifact.deployed) (normalize onChain)).1.map Resolved.event)))
      (told client' chain address o (w.logged
        ((scan (normalize artifact.deployed) (normalize onChain)).1.map Resolved.event)))) :
    (compare client' chain address onChain' artifact' o w).1
        = (compare client chain address onChain artifact o w).1 ∧
      (compare client' chain address onChain' artifact' o w).2.effects
        = (compare client chain address onChain artifact o w).2.effects ∧
      ∀ verdict arguments, (compare client chain address onChain artifact o w).1 = .ok verdict →
        verdict.arguments = some arguments →
        ∃ digits, digits ≠ [] ∧ digits.all Hex.isDigit = true ∧ asciiLowercase digits = digits ∧
          arguments = String.ofList (Hex.mark ++ digits) := by
  have hall := all_isCodeCharacter_of_digits hactual
  have honChains : normalize onChain' = normalize onChain := by
    rw [normalize_of_spells hall honChain, normalize_of_spells hall honChain']
  have htemplates : normalize artifact'.deployed = normalize artifact.deployed := by
    rw [normalize_of_spells hdeployed htemplate, normalize_of_spells hdeployed htemplate']
  have hcodes : normalize artifact'.creation = normalize artifact.creation := by
    rw [normalize_of_spells hcreation hcode, normalize_of_spells hcreation hcode']
  rw [compare_of_normalize honChains htemplates hcodes]
  obtain ⟨hresult, heffects⟩ := compare_of_sameAnswer hanswer
  exact ⟨hresult, heffects, fun _ _ => arguments_of_sameAnswer hanswer⟩

/-- Blanks, marks and capitals in all four codes, a token in the creation code and a byte of arguments. -/
theorem compare_of_respelled_arguments :
    let creation : Template := [.digit '6' rfl, .token (.repeating 'b' rfl)]
    let address := Digits.repeating '1' rfl
    let input := creation.linked (fun _ => address) ++ ['f', 'f']
    let artifact : Artifact := ⟨[], String.ofList creation.code, "60aa"⟩
    let artifact' : Artifact := ⟨[], String.ofList (Hex.mark ++ creation.code.map Char.toUpper), " 0x60AA"⟩
    let told := String.ofList input
    let told' := String.ofList ('\t' :: (Hex.mark ++ input.map Char.toUpper ++ [Char.ofNat 0x3000]))
    (compare (.telling told') 1 "0x" "0x60Bb\n" artifact' .idle .blank).1
        = (compare (.telling told) 1 "0x" "60bb" artifact .idle .blank).1 ∧
      (compare (.telling told) 1 "0x" "60bb" artifact .idle .blank).1
        = .ok ⟨.perfect, some (String.ofList ['0', 'x', 'f', 'f'])⟩ := by
  intro creation address input artifact artifact' told told'
  have hspells : ∀ (text : String) (code : List Char), code.all isCodeCharacter = true →
      normalize text = asciiLowercase code → Spells text code := fun _ _ hcode => (spells_iff hcode).2
  have htold : normalize told = input := by
    rw [normalize_ofList]
    decide
  have hcode : normalize artifact.creation = creation.code := by
    rw [normalize_ofList]
    decide
  have hanswer : SameAnswer (.ok told) (.ok told') :=
    @SameAnswer.told told told' input (by decide) (hspells _ _ (by decide) (by rw [htold]; decide))
      (hspells _ _ (by decide) (by rw [normalize_ofList]; decide))
  have hsame := @compare_of_respelled Unit .idle .blank (.telling told) (.telling told') 1 "0x" "60bb"
    "0x60Bb\n" artifact artifact' ['6', '0', 'b', 'b'] ['6', '0', 'a', 'a'] creation.code (by decide)
    (by decide) (by decide) (hspells _ _ (by decide) (by decide)) (hspells _ _ (by decide) (by decide))
    (hspells _ _ (by decide) (by decide)) (hspells _ _ (by decide) (by decide))
    (hspells _ _ (by decide) (by rw [hcode]; decide))
    (hspells _ _ (by decide) (by rw [normalize_ofList]; decide)) hanswer
  have hun : Undecided (normalize artifact.deployed) (normalize artifact.creation) (normalize "60bb") := by
    refine ⟨_, link_of_digits (by decide) _, ?_⟩
    rw [hcode]
    decide
  refine ⟨hsame.1, ?_⟩
  rw [compare_of_undecided hun, compareCreation_fst]
  show (creationResult (normalize artifact.creation) (normalize told)).mapError _ = _
  rw [hcode, htold]
  exact (decides_creationResult (c := creation) (by decide) (by decide)).arguments (fun _ => address) _ rfl

end Bytecode

end Provenance
