import Provenance.Proofs.Bytecode.Template

/-!
# Substitution in templates

Tokens are replaced one kind after the other, each wherever it occurs in the text. In a template
that some addresses were already put into, a token occurs in its own places only, also where tokens
stand side by side, so the replacements come to one substitution for all tokens at once
(`substitute_fill`).
-/

namespace Provenance.Bytecode

open Text

/-! ## Where tokens begin -/

theorem not_mark_prefix_cons {x : Char} {xs : List Char} (h : x ≠ '_') :
    ¬ mark <+: x :: xs := by
  intro hp
  rw [mark, List.cons_prefix_cons] at hp
  exact h hp.1.symm

/-- No token begins in digits. -/
theorem clean_digits {a b : List Char} (ha : a.all Hex.isDigit = true) :
    Clean mark a b := by
  induction a with
  | nil => exact clean_nil _ _
  | cons x a ih =>
    obtain ⟨hx, ha'⟩ := Bool.and_eq_true_iff.1 ha
    exact clean_cons.2 ⟨not_mark_prefix_cons (Hex.ne_underscore_of_isDigit hx), ih ha'⟩

/-- A text after which the end of a token is no beginning of one. -/
private structure Follows (b : List Char) : Prop where
  not_dollar : ¬ ['$'] <+: b
  not_underscore_dollar : ¬ ['_', '$'] <+: b

/-- No token begins within the text of a token. -/
private theorem clean_tail_code (u : Token) {b : List Char} (hb : Follows b) :
    Clean mark ('_' :: '$' :: (u.name ++ closing)) b := by
  have hclosing : Clean mark closing b := by
    refine clean_cons.2 ⟨not_mark_prefix_cons (by decide), clean_cons.2 ⟨?_, clean_cons.2 ⟨?_,
      clean_nil _ _⟩⟩⟩
    · intro h
      exact hb.not_dollar (by simpa [mark, List.cons_prefix_cons] using h)
    · intro h
      exact hb.not_underscore_dollar (by simpa [mark, List.cons_prefix_cons] using h)
  refine clean_cons.2 ⟨by simp [mark], clean_cons.2 ⟨not_mark_prefix_cons (by decide), ?_⟩⟩
  exact clean_append (clean_digits u.name_digits) hclosing

/-! ## One replacement -/

/-- Each token still has its own text or was given an address. -/
def PartlyLinked (ρ : Token → List Char) : Prop :=
  ∀ u, ρ u = u.code ∨ ∃ a : Digits, ρ u = a.text

namespace Template

variable {ρ : Token → List Char}

private theorem follows_fill (hρ : PartlyLinked ρ) (t : Template) : Follows (t.fill ρ) := by
  have of_digit : ∀ {c : Char} {cs : List Char}, Hex.isDigit c = true → Follows (c :: cs) := by
    intro c cs hc
    constructor
    · intro h
      exact Hex.ne_dollar_of_isDigit hc (List.cons_prefix_cons.1 h).1.symm
    · intro h
      exact Hex.ne_underscore_of_isDigit hc (List.cons_prefix_cons.1 h).1.symm
  cases t with
  | nil => exact ⟨by simp [fill], by simp [fill]⟩
  | cons x t =>
    cases x with
    | digit c hc => exact of_digit hc
    | token u =>
      rw [fill]
      rcases hρ u with h | ⟨a, h⟩
      · rw [h]
        exact ⟨by simp [Token.code, mark], by simp [Token.code, mark]⟩
      · -- an address has a first digit
        have hpos : a.text ≠ [] := by
          intro hnil
          have hlen := a.length_text
          rw [hnil] at hlen
          exact absurd hlen (by decide)
        obtain ⟨d, ds, hd⟩ := List.exists_cons_of_ne_nil hpos
        have hdigits := a.text_digits
        rw [hd] at hdigits
        rw [h, hd]
        exact of_digit (Bool.and_eq_true_iff.1 hdigits).1

/-- Replacing the text of a token changes the places of this token and nothing else. -/
theorem replaceAll_fill (hρ : PartlyLinked ρ) (v : Token) (a : Digits) (t : Template) :
    replaceAll v.code a.text (t.fill ρ)
      = t.fill fun u => if ρ u = v.code then a.text else ρ u := by
  have hmark : mark <+: v.code := List.prefix_append _ _
  induction t with
  | nil => rfl
  | cons x t ih =>
    cases x with
    | digit c hc =>
      have hclean : ¬ v.code <+: c :: fill ρ t := fun h =>
        not_mark_prefix_cons (Hex.ne_underscore_of_isDigit hc) (hmark.trans h)
      rw [fill, fill, replaceAll_cons hclean, ih]
    | token u =>
      rw [fill, fill, ← ih]
      rcases hρ u with hu | ⟨d, hu⟩
      · rw [hu]
        by_cases huv : u = v
        · subst huv
          rw [if_pos rfl, replaceAll_needle_append (by simp [Token.code, mark])]
        · have hhead : ¬ v.code <+: u.code ++ fill ρ t := fun h =>
            huv (Token.prefix_code_append h).symm
          have htail := clean_tail_code u (follows_fill hρ t)
          rw [if_neg fun h => huv (Token.code_inj.1 h)]
          exact replaceAll_append_of_clean (clean_cons.2 ⟨hhead, htail.longer hmark⟩)
      · rw [hu, if_neg (d.text_ne_code v)]
        exact replaceAll_append_of_clean ((clean_digits d.text_digits).longer hmark)

/-- A token that a template does not hold begins nowhere in it. -/
theorem clean_code {v : Token} {s t : Template} (hno : .token v ∉ s) :
    Clean v.code s.code t.code := by
  have hmark : mark <+: v.code := List.prefix_append _ _
  induction s with
  | nil => exact clean_nil _ _
  | cons x s ih =>
    obtain ⟨hx, hs⟩ := not_or.1 (fun h => hno (List.mem_cons.2 h))
    have hrest : code s ++ code t = fill Token.code (s ++ t) := by
      rw [fill_append]
      rfl
    cases x with
    | digit c hc =>
      refine clean_cons.2 ⟨?_, ih hs⟩
      intro h
      exact not_mark_prefix_cons (Hex.ne_underscore_of_isDigit hc) (hmark.trans h)
    | token u =>
      have hcode : Clean v.code u.code (fill Token.code (s ++ t)) := by
        refine clean_cons.2 ⟨?_, ?_⟩
        · intro h
          exact hx (congrArg Symbol.token (Token.prefix_code_append h))
        · exact (clean_tail_code u (follows_fill (fun u => .inl rfl) (s ++ t))).longer hmark
      exact clean_append (hrest ▸ hcode) (ih hs)

/-! ## All replacements -/

end Template

/-- Every entry has a token for its key and an address for its value. -/
def Addresses.Valid (d : Addresses) : Prop :=
  ∀ entry ∈ d, ∃ (u : Token) (a : Digits), entry = (u.code, a.text)

/-- The replacements, one after the other, come to one substitution: a token that has no address yet
gets the one under it. -/
theorem substitute_fill {d : Addresses} (hd : d.Valid) {ρ : Token → List Char}
    (hρ : PartlyLinked ρ) (t : Template) :
    substitute d (t.fill ρ)
      = t.fill fun u => if ρ u = u.code then (Dictionary.get? u.code d).getD u.code else ρ u := by
  induction d generalizing ρ with
  | nil =>
    have hid : (fun u => if ρ u = u.code then u.code else ρ u) = ρ := by
      funext u
      split
      · next h => exact h.symm
      · rfl
    simp [substitute, Dictionary.get?, hid]
  | cons entry d ih =>
    obtain ⟨v, a, rfl⟩ := hd entry List.mem_cons_self
    have hstep : PartlyLinked fun u => if ρ u = v.code then a.text else ρ u := by
      intro u
      by_cases h : ρ u = v.code
      · exact .inr ⟨a, if_pos h⟩
      · simpa [h] using hρ u
    have hrest : substitute ((v.code, a.text) :: d) (t.fill ρ)
        = substitute d (replaceAll v.code a.text (t.fill ρ)) := rfl
    rw [hrest, Template.replaceAll_fill hρ, ih (fun e he => hd e (List.mem_cons_of_mem _ he)) hstep]
    refine Template.fill_congr fun u _ => ?_
    rcases hρ u with hu | ⟨b, hu⟩
    · by_cases huv : u = v
      · subst huv
        simp [hu, Dictionary.get?, a.text_ne_code]
      · have hcode : u.code ≠ v.code := fun h => huv (Token.code_inj.1 h)
        simp [hu, hcode, Dictionary.get?, Ne.symm hcode]
    · simp [hu, b.text_ne_code]

/-- The replacements in a template itself. -/
theorem substitute_code {d : Addresses} (hd : d.Valid) (t : Template) :
    substitute d t.code = t.fill fun u => (Dictionary.get? u.code d).getD u.code := by
  have h := substitute_fill hd (ρ := Token.code) (fun u => .inl rfl) t
  simpa [Template.code] using h

end Provenance.Bytecode
