import Provenance.Proofs.Bytecode.Comparison

/-!
# Matches of the deployed code

What the statuses mean that a comparison finds in the deployed codes alone: equal after linking, and
equal but for the trailers.
-/

namespace Provenance.Bytecode

open Text

variable {ν : Type} {o : Outside ν} {w : World ν} {client : ChainClient ν} {chain : Nat}
  {address onChain : String} {artifact : Artifact}

/-! ## Exact matches -/

/-- The deployed codes are found equal exactly when some addresses for the tokens of the compiled code
make it the code on the chain. -/
theorem perfect_unasked_iff {t : Template} (ht : normalize artifact.deployed = t.code) :
    (EndsWith (compare client chain address onChain artifact o w).1 .perfect ∧
        (compare client chain address onChain artifact o w).2.effects = w.effects) ↔
      ∃ σ, t.linked σ = normalize onChain := by
  rw [endsWith_unasked_iff, conclusion?_eq_perfect_iff, ht]
  exact link_code_eq_self_iff

/-- Two tokens side by side, one of them again at the end. -/
theorem perfect_unasked_recurring :
    let u := Token.repeating 'b' rfl
    let v := Token.repeating 'c' rfl
    let t : Template := [.token u, .token v, .digit '6' rfl, .token u]
    let σ := fun x => if x = u then Digits.repeating '1' rfl else Digits.repeating '2' rfl
    let artifact : Artifact := ⟨[], "", String.ofList (Hex.mark ++ t.code)⟩
    ∃ result, result = compare (.telling "") 1 "0x" (String.ofList (t.linked σ)) artifact .idle .blank ∧
      EndsWith result.1 .perfect ∧ result.2.effects = World.blank.effects := by
  intro u v t σ artifact
  have ht : normalize artifact.deployed = t.code := by
    rw [normalize_ofList]
    decide
  have hlinked : t.linked σ = normalize (String.ofList (t.linked σ)) := by
    rw [normalize_ofList]
    decide
  have hiff := @perfect_unasked_iff Unit .idle .blank (.telling "") 1 "0x"
    (String.ofList (t.linked σ)) artifact t ht
  exact ⟨_, rfl, hiff.2 ⟨σ, hlinked⟩⟩

/-! ## Matches without trailers -/

/-- Nothing, or a trailer in digits. -/
def IsOptionalTrailer (s : List Char) : Prop :=
  s = [] ∨ (IsTrailer s ∧ s.all Hex.isDigit = true)

/-- What was taken off a code of digits is nothing or a trailer in digits. -/
private theorem exists_optionalTrailer {c : List Char} (hd : c.all Hex.isDigit = true) :
    ∃ s, c = stripTrailer c ++ s ∧ IsOptionalTrailer s := by
  rcases stripTrailer_cases c with hc | ⟨s, hc, hs, -⟩
  · exact ⟨[], by rw [hc, List.append_nil], .inl rfl⟩
  · refine ⟨s, hc, .inr ⟨hs, ?_⟩⟩
    rw [hc, List.all_append, Bool.and_eq_true] at hd
    exact hd.2

/-- Linking a template with a trailer against a code with another trailer. -/
private theorem link_of_trailers {b : Template} {σ : Token → Digits} {s₁ s₂ : List Char}
    (hd : s₁.all Hex.isDigit = true) :
    link (b.code ++ s₁) (b.linked σ ++ s₂) = .ok (b.linked σ ++ s₁) := by
  -- the compiled trailer is part of the template, but has no tokens
  obtain ⟨d, hno, hfill⟩ := Template.exists_of_digits hd
  have hcode : (b ++ d).code = b.code ++ s₁ := by
    rw [Template.code, Template.fill_append, hfill, Template.code]
  have hlinked : (b ++ d).linked σ = b.linked σ ++ s₁ := by
    rw [Template.linked, Template.fill_append, hfill, Template.linked]
  have hagrees : (b ++ d).Agrees (b.linked σ ++ s₂) σ := (b.agrees_linked_append σ s₂).append hno
  rw [← hcode, ← hlinked]
  exact link_of_agrees hagrees

/-- What follows from deployed codes that differ in their trailers at most. -/
private theorem conclusion?_of_trailers {b : Template} {σ : Token → Digits} {s₁ s₂ creation : List Char}
    (h₁ : IsTrailer s₁) (h₂ : IsTrailer s₂) (hd₁ : s₁.all Hex.isDigit = true)
    (hlen₁ : 6 ≤ b.width + byteLength s₁) (hlen₂ : 6 ≤ b.width + byteLength s₂) :
    conclusion? (b.code ++ s₁) creation (b.linked σ ++ s₂)
      = .ok (some (if s₁ = s₂ then .perfect else .partially)) := by
  have hlink := @link_of_trailers b σ s₁ s₂ hd₁
  split
  · next heq =>
    rw [conclusion?_eq_perfect_iff, hlink, heq]
  · next hne =>
    have hstrip₁ : stripTrailer (b.linked σ ++ s₁) = b.linked σ :=
      stripTrailer_append h₁ (by rw [byteLength_append, Template.byteLength_linked]; exact hlen₁)
    have hstrip₂ : stripTrailer (b.linked σ ++ s₂) = b.linked σ :=
      stripTrailer_append h₂ (by rw [byteLength_append, Template.byteLength_linked]; exact hlen₂)
    rw [conclusion?_eq_partially_iff]
    refine ⟨b.linked σ ++ s₁, hlink, ?_, hstrip₁.trans hstrip₂.symm⟩
    intro heq
    exact hne (List.append_cancel_left heq)

/-- Codes that differ in their trailers are found to do so, without a question, and only such codes
are. -/
theorem partially_means_trailers :
    (∀ (b : Template) (σ : Token → Digits) (s₁ s₂ : List Char),
        IsTrailer s₁ → IsTrailer s₂ → s₁.all Hex.isDigit = true → s₂.all Hex.isDigit = true →
        6 ≤ b.width + s₁.length → 6 ≤ b.width + s₂.length →
        normalize artifact.deployed = b.code ++ s₁ → normalize onChain = b.linked σ ++ s₂ →
        (compare client chain address onChain artifact o w).1
            = .ok (.plain (if s₁ = s₂ then .perfect else .partially)) ∧
          (compare client chain address onChain artifact o w).2.effects = w.effects) ∧
      ∀ t : Template, normalize artifact.deployed = t.code →
        (normalize onChain).all Hex.isDigit = true →
        EndsWith (compare client chain address onChain artifact o w).1 .partially →
        ∃ linked c s₁ s₂, link t.code (normalize onChain) = .ok linked ∧
          linked ≠ normalize onChain ∧ linked = c ++ s₁ ∧ normalize onChain = c ++ s₂ ∧
          IsOptionalTrailer s₁ ∧ IsOptionalTrailer s₂ := by
  constructor
  · intro b σ s₁ s₂ h₁ h₂ hd₁ hd₂ hlen₁ hlen₂ hdeployed honChain
    rw [← Hex.byteLength_of_digits hd₁] at hlen₁
    rw [← Hex.byteLength_of_digits hd₂] at hlen₂
    have hc := @conclusion?_of_trailers b σ s₁ s₂ (normalize artifact.creation) h₁ h₂ hd₁ hlen₁ hlen₂
    rw [← hdeployed, ← honChain] at hc
    obtain ⟨events, hresult⟩ := @compare_of_status ν o w client chain address _ _ _ hc
    rw [hresult]
    exact ⟨rfl, rfl⟩
  · intro t ht hd hpartially
    obtain ⟨linked, hlink, hdiff, hstrip⟩ := endsWith_partially_iff.1 hpartially
    rw [ht] at hlink
    obtain ⟨σ, -, hlinked⟩ := link_code_eq_ok_iff.1 hlink
    have hdigits : linked.all Hex.isDigit = true := by
      rw [hlinked]
      exact Template.linked_digits
    obtain ⟨s₁, hs₁, htrailer₁⟩ := exists_optionalTrailer hdigits
    obtain ⟨s₂, hs₂, htrailer₂⟩ := exists_optionalTrailer hd
    rw [← hstrip] at hs₂
    exact ⟨linked, stripTrailer linked, s₁, s₂, hlink, hdiff, hs₁, hs₂, htrailer₁, htrailer₂⟩

/-- A token and trailers of different lengths. -/
theorem partially_means_trailers_of_lengths :
    let b : Template := [.digit '6' rfl, .token (.repeating 'b' rfl)]
    let σ := fun _ => Digits.repeating '1' rfl
    let s₁ := ['a', 'a', '0', '0', '0', '1']
    let s₂ := ['c', 'c', 'd', 'd', '0', '0', '0', '2']
    let artifact : Artifact := ⟨[], "", String.ofList (b.code ++ s₁)⟩
    let onChain := String.ofList (b.linked σ ++ s₂)
    ∃ result, result = compare (.telling "") 1 "0x" onChain artifact .idle .blank ∧
      result.1 = .ok (.plain .partially) ∧ result.2.effects = World.blank.effects ∧
      ∃ c t₁ t₂, b.linked σ ++ s₁ = c ++ t₁ ∧ normalize onChain = c ++ t₂ ∧
        IsOptionalTrailer t₁ ∧ IsOptionalTrailer t₂ := by
  intro b σ s₁ s₂ artifact onChain
  obtain ⟨hlaw, hconverse⟩ := @partially_means_trailers Unit .idle .blank (.telling "") 1 "0x"
    onChain artifact
  have h₁ : IsTrailer s₁ := ⟨['a', 'a'], ['0', '0', '0', '1'], rfl, rfl, rfl, rfl⟩
  have h₂ : IsTrailer s₂ := ⟨['c', 'c', 'd', 'd'], ['0', '0', '0', '2'], rfl, rfl, rfl, rfl⟩
  have hdeployed : normalize artifact.deployed = b.code ++ s₁ := by
    rw [normalize_ofList]
    decide
  have honChain : normalize onChain = b.linked σ ++ s₂ := by
    rw [normalize_ofList]
    decide
  obtain ⟨hresult, heffects⟩ := hlaw b σ s₁ s₂ h₁ h₂ rfl rfl (by decide) (by decide) hdeployed
    honChain
  refine ⟨_, rfl, hresult, heffects, ?_⟩
  -- the same code as a template, its trailer among the symbols
  let t : Template := b ++ [.digit 'a' rfl, .digit 'a' rfl, .digit '0' rfl, .digit '0' rfl,
    .digit '0' rfl, .digit '1' rfl]
  have ht : normalize artifact.deployed = t.code := by
    rw [hdeployed]
    rfl
  have hdigits : (normalize onChain).all Hex.isDigit = true := by
    rw [honChain]
    decide
  obtain ⟨linked, c, t₁, t₂, hlink, -, hc₁, hc₂, htrailers⟩ :=
    hconverse t ht hdigits ⟨_, hresult, rfl⟩
  rw [← ht, hdeployed, honChain, link_of_trailers rfl, Except.ok.injEq] at hlink
  exact ⟨c, t₁, t₂, hlink.trans hc₁, hc₂, htrailers⟩

/-! ## Matches of nothing -/

/-- The linked code and the code on the chain differ, and neither holds more than a trailer. -/
def OnlyTrailers (template actual : List Char) : Prop :=
  ∃ linked, link template actual = .ok linked ∧ linked ≠ actual ∧
    (linked = [] ∨ IsWholeTrailer linked) ∧ IsWholeTrailer actual

/-- A comparison without compiled code. -/
private theorem endsWith_of_nothing (hA : normalize onChain ≠ [])
    (hT : normalize artifact.deployed = []) :
    ¬ EndsWith (compare client chain address onChain artifact o w).1 .perfect ∧
      (EndsWith (compare client chain address onChain artifact o w).1 .partially ↔
        IsWholeTrailer (normalize onChain)) := by
  have hlink : link [] (normalize onChain) = .ok [] := rfl
  have hnil : stripTrailer [] = [] := rfl
  constructor
  · intro hperfect
    rcases @effects_compare ν o w client chain address onChain artifact with
      ⟨hun, -⟩ | ⟨-, heffects⟩
    · -- a body as short as nothing is nothing
      obtain ⟨linked, hl, -, hbodies, hlen, -⟩ := hun
      rw [hT, hlink, Except.ok.injEq] at hl
      rw [← hl, hnil, byteLength_nil] at hlen
      rw [← hl, hnil] at hbodies
      exact hbodies (byteLength_eq_zero.1 hlen.symm).symm
    · have hc := endsWith_unasked_iff.1 ⟨hperfect, heffects⟩
      rw [conclusion?_eq_perfect_iff, hT, hlink, Except.ok.injEq] at hc
      exact hA hc.symm
  · rw [endsWith_partially_iff, hT, hlink]
    constructor
    · intro h
      obtain ⟨linked, hl, -, hstrip⟩ := h
      rw [← Except.ok.inj hl, hnil] at hstrip
      exact (stripTrailer_eq_nil_iff.1 hstrip.symm).resolve_left hA
    · intro h
      exact ⟨[], rfl, hA.symm, hnil.trans (stripTrailer_eq_nil_iff.2 (.inr h)).symm⟩

/-- Codes that are found equal but for their trailers have something in common exactly unless both are
trailers at most, which a code that is not there is. -/
theorem partially_of_something_iff (hA : normalize onChain ≠ []) :
    ((EndsWith (compare client chain address onChain artifact o w).1 .partially →
        ∃ linked, link (normalize artifact.deployed) (normalize onChain) = .ok linked ∧
          stripTrailer linked = stripTrailer (normalize onChain) ∧
          stripTrailer (normalize onChain) ≠ []) ↔
      ¬ OnlyTrailers (normalize artifact.deployed) (normalize onChain)) ∧
    (normalize artifact.deployed = [] →
      ¬ EndsWith (compare client chain address onChain artifact o w).1 .perfect ∧
        (EndsWith (compare client chain address onChain artifact o w).1 .partially ↔
          IsWholeTrailer (normalize onChain))) := by
  refine ⟨?_, endsWith_of_nothing hA⟩
  rw [endsWith_partially_iff]
  constructor
  · intro h honly
    obtain ⟨linked, hlink, hdiff, hlinked, hactual⟩ := honly
    have hstrip : stripTrailer linked = stripTrailer (normalize onChain) :=
      (stripTrailer_eq_nil_iff.2 hlinked).trans (stripTrailer_eq_nil_iff.2 (.inr hactual)).symm
    obtain ⟨-, -, -, hsome⟩ := h ⟨linked, hlink, hdiff, hstrip⟩
    exact hsome (stripTrailer_eq_nil_iff.2 (.inr hactual))
  · intro h hpartially
    obtain ⟨linked, hlink, hdiff, hstrip⟩ := hpartially
    refine ⟨linked, hlink, hstrip, ?_⟩
    intro hnil
    have hlinked := stripTrailer_eq_nil_iff.1 (hstrip.trans hnil)
    have hactual := (stripTrailer_eq_nil_iff.1 hnil).resolve_left hA
    exact h ⟨linked, hlink, hdiff, hlinked, hactual⟩

/-- The bodies of these codes are not empty. -/
theorem partially_of_something_short :
    let artifact : Artifact := ⟨[], "", "60aa0001"⟩
    normalize "60bb0001" ≠ [] ∧
      (EndsWith (compare (.telling "") 1 "0x" "60bb0001" artifact .idle .blank).1 .partially →
        ∃ linked, link (normalize artifact.deployed) (normalize "60bb0001") = .ok linked ∧
          stripTrailer linked = stripTrailer (normalize "60bb0001") ∧
          stripTrailer (normalize "60bb0001") ≠ []) := by
  intro artifact
  have hA : normalize "60bb0001" ≠ [] := by decide
  have hsome : stripTrailer (normalize "60bb0001") ≠ [] := by decide
  refine ⟨hA, (@partially_of_something_iff Unit .idle .blank (.telling "") 1 "0x" "60bb0001" artifact
    hA).1.2 ?_⟩
  intro honly
  obtain ⟨-, -, -, -, hactual⟩ := honly
  exact hsome (stripTrailer_eq_nil_iff.2 (.inr hactual))

/-- A contract without deployed code is taken for the declared target, and found equal but for the
trailer to a code that is a trailer. -/
theorem partially_of_nothing :
    let target : Target := ⟨"token.sol", "Token"⟩
    let artifact : Artifact := ⟨[], "", ""⟩
    let output : CompilerOutput := ⟨[("token.sol", [("Token", artifact)])], [], none⟩
    output.resolve (some target) = .ok target ∧ output.artifact? target = some artifact ∧
      normalize "0xaa0001" ≠ [] ∧ stripTrailer (normalize "0xaa0001") = [] ∧
      EndsWith (compare (.telling "") 1 "0x32Be343B94f860124DC4fEe278FDCBD38C102D88" "0xaa0001" artifact
        .idle .blank).1 .partially := by
  intro target artifact output
  refine ⟨rfl, rfl, by decide, by decide, ?_⟩
  exact endsWith_partially_iff.2 ⟨[], rfl, by decide, by decide⟩

end Provenance.Bytecode
