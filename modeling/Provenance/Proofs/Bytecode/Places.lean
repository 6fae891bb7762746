import Provenance.Proofs.Bytecode.Substitution

/-!
# Places of tokens

A token stands in a template for the first time at one place. The scan of a template meets the tokens
in order and asks for the address of each at its first place, up to one that has none (`scan_code`).
-/

namespace Provenance.Bytecode

open Text

/-! ## First places -/

namespace Template

/-- The token `u` stands in `t` after `pre` and nowhere before. -/
def First (t pre : Template) (u : Token) : Prop :=
  .token u ∉ pre ∧ ∃ post, t = pre ++ .token u :: post

variable {t b d pre pre' : Template} {u : Token}

theorem not_first_nil : ¬ First [] pre u := by
  rintro ⟨-, post, h⟩
  simp at h

theorem first_cons {x : Symbol} :
    First (x :: t) pre u ↔
      (pre = [] ∧ x = .token u) ∨ ∃ pre', pre = x :: pre' ∧ x ≠ .token u ∧ First t pre' u := by
  cases pre with
  | nil => simp [First]
  | cons y pre =>
    constructor
    · rintro ⟨hno, post, h⟩
      obtain ⟨rfl, rfl⟩ := List.cons.inj h
      simp only [List.mem_cons, not_or] at hno
      exact .inr ⟨pre, rfl, Ne.symm hno.1, hno.2, post, rfl⟩
    · rintro (⟨h, -⟩ | ⟨pre', h, hx, hno, post, rfl⟩)
      · simp at h
      · obtain ⟨rfl, rfl⟩ := List.cons.inj h
        exact ⟨by simp [Ne.symm hx, hno], post, rfl⟩

/-- There is one first place. -/
theorem First.unique (h : First t pre u) (h' : First t pre' u) : pre = pre' := by
  induction t generalizing pre pre' with
  | nil => exact absurd h not_first_nil
  | cons x t ih =>
    rcases first_cons.1 h with ⟨rfl, hx⟩ | ⟨p, rfl, hx, hp⟩ <;>
      rcases first_cons.1 h' with ⟨rfl, hx'⟩ | ⟨p', rfl, hx', hp'⟩
    · rfl
    · exact absurd hx hx'
    · exact absurd hx' hx
    · rw [ih hp hp']

theorem exists_first (h : .token u ∈ t) : ∃ pre, First t pre u := by
  induction t with
  | nil => simp at h
  | cons x t ih =>
    by_cases hx : x = .token u
    · exact ⟨[], first_cons.2 (.inl ⟨rfl, hx⟩)⟩
    · obtain ⟨pre, hpre⟩ := ih ((List.mem_cons.1 h).resolve_left (Ne.symm hx))
      exact ⟨x :: pre, first_cons.2 (.inr ⟨pre, rfl, hx, hpre⟩)⟩

/-- The first places of the tokens that are not among the `known` ones, by increasing offset. -/
def firsts : (offset : Nat) → (known : List Token) → Template → List (Nat × Token)
  | _, _, [] => []
  | offset, known, .digit _ _ :: t => firsts (offset + 1) known t
  | offset, known, .token u :: t =>
    if u ∈ known then firsts (offset + placeholderWidth) known t
    else (offset, u) :: firsts (offset + placeholderWidth) (u :: known) t

private theorem exists_first_cons {x : Symbol} {n k : Nat} :
    (∃ pre, First (x :: t) pre u ∧ k = n + pre.width) ↔
      (x = .token u ∧ k = n) ∨
        (x ≠ .token u ∧ ∃ pre, First t pre u ∧ k = n + x.width + pre.width) := by
  constructor
  · rintro ⟨pre, hpre, rfl⟩
    rcases first_cons.1 hpre with ⟨rfl, hx⟩ | ⟨pre', rfl, hx, hpre'⟩
    · exact .inl ⟨hx, rfl⟩
    · exact .inr ⟨hx, pre', hpre', by rw [width, Nat.add_assoc]⟩
  · rintro (⟨hx, rfl⟩ | ⟨hx, pre, hpre, rfl⟩)
    · exact ⟨[], first_cons.2 (.inl ⟨rfl, hx⟩), rfl⟩
    · exact ⟨x :: pre, first_cons.2 (.inr ⟨pre, rfl, hx, hpre⟩), by rw [width, Nat.add_assoc]⟩

theorem mem_firsts {n k : Nat} {known : List Token} :
    (k, u) ∈ firsts n known t ↔ u ∉ known ∧ ∃ pre, First t pre u ∧ k = n + pre.width := by
  induction t generalizing n known with
  | nil => simp [firsts, not_first_nil]
  | cons x t ih =>
    rw [exists_first_cons]
    cases x with
    | digit c hc => simp [firsts, ih, Symbol.width]
    | token v =>
      simp only [firsts, Symbol.width, Symbol.token.injEq, ne_eq]
      split
      · next hv =>
        -- a token that is known adds no place
        rw [ih]
        grind
      · next hv =>
        rw [List.mem_cons, Prod.mk.injEq, ih, List.mem_cons]
        grind

end Template

/-! ## The scan -/

/-- The addresses at some places, up to the first place that has none. -/
def resolveAll (actual : List Char) : List (Nat × Token) → List Resolved × Option LinkError
  | [] => ([], none)
  | (offset, u) :: places =>
    match addressAt actual u.code offset with
    | .error e => ([], some e)
    | .ok address =>
      let (more, e) := resolveAll actual places
      (⟨u.code, offset, address⟩ :: more, e)

section
variable {actual : List Char} {fuel cursor : Nat} {known : List (List Char)}

/-- The scan passes a digit. -/
private theorem scanFrom_digit {c : Char} (hc : Hex.isDigit c = true) (cs : List Char) :
    scanFrom actual (fuel + 1) cursor (c :: cs) known
      = scanFrom actual (fuel + 1) (cursor + 1) cs known := by
  have hmark : mark.isPrefixOf (c :: cs) = false := by
    rw [Bool.eq_false_iff]
    exact fun h => not_mark_prefix_cons (Hex.ne_underscore_of_isDigit hc)
      (List.isPrefixOf_iff_prefix.1 h)
  have hfind : find? mark (c :: cs) = (find? mark cs).map (1 + ·) := by
    rw [find?, hmark, Hex.utf8Size_of_isDigit hc]
    rfl
  have hdrop : ∀ n, drop? (1 + n) (c :: cs) = drop? n cs := by
    intro n
    rw [drop?, Nat.add_comm, splitAt?, Hex.utf8Size_of_isDigit hc, if_pos (by omega),
      Option.map_map]
    rfl
  rw [scanFrom, scanFrom, hfind]
  cases find? mark cs with
  | none => rfl
  | some n => simp only [Option.map_some, hdrop, Nat.add_assoc]

/-- The scan stops at a token. -/
private theorem scanFrom_token (u : Token) (cs : List Char) :
    scanFrom actual (fuel + 1) cursor (u.code ++ cs) known
      = if known.contains u.code then
          scanFrom actual fuel (cursor + placeholderWidth) cs known
        else
          match addressAt actual u.code cursor with
          | .error e => ([], some e)
          | .ok address =>
            let (more, e) :=
              scanFrom actual fuel (cursor + placeholderWidth) cs (u.code :: known)
            (⟨u.code, cursor, address⟩ :: more, e) := by
  have hfind : find? mark (u.code ++ cs) = some 0 :=
    find?_eq_some_iff.2 ⟨[], u.name ++ closing ++ cs, by simp [Token.code], rfl, clean_nil _ _⟩
  have hsplit : (drop? 0 (u.code ++ cs)).bind (splitAt? placeholderWidth)
      = some (u.code, cs) := by
    have hdrop : drop? 0 (u.code ++ cs) = some (u.code ++ cs) :=
      drop?_eq_some_iff.2 ⟨[], rfl, rfl⟩
    rw [hdrop]
    exact splitAt?_eq_some_iff.2 ⟨rfl, u.byteLength_code⟩
  rw [scanFrom, hfind]
  dsimp only
  generalize (drop? 0 (u.code ++ cs)).bind (splitAt? placeholderWidth) = parts at hsplit ⊢
  subst hsplit
  rfl

end

/-- The scan of a template asks for the addresses at the first places of its tokens. -/
private theorem scanFrom_code {actual : List Char} {fuel cursor : Nat} {known : List Token}
    {t : Template} (h : t.length < fuel) :
    scanFrom actual fuel cursor t.code (known.map Token.code)
      = resolveAll actual (t.firsts cursor known) := by
  induction t generalizing fuel cursor known with
  | nil =>
    cases fuel with
    | zero => rfl
    | succ fuel => rfl
  | cons x t ih =>
    cases fuel with
    | zero => omega
    | succ fuel =>
      rw [List.length_cons] at h
      cases x with
      | digit c hc =>
        rw [Template.code, Template.fill, scanFrom_digit hc, Template.firsts]
        exact ih (by omega)
      | token u =>
        have hknown : (known.map Token.code).contains u.code = decide (u ∈ known) := by
          simp [Token.code_inj]
        rw [Template.code, Template.fill, scanFrom_token, hknown, Template.firsts]
        by_cases hu : u ∈ known
        · simp only [hu, decide_true, if_true]
          exact ih (by omega)
        · simp only [hu, decide_false, Bool.false_eq_true, if_false, resolveAll]
          have hrest := @ih fuel (cursor + placeholderWidth) (u :: known) (by omega)
          rw [List.map_cons, Template.code] at hrest
          rw [hrest]

theorem scan_code (actual : List Char) (t : Template) :
    scan t.code actual = resolveAll actual (t.firsts 0 []) := by
  have hlen : ∀ s : Template, s.length ≤ s.code.length := by
    intro s
    induction s with
    | nil => exact Nat.le_refl _
    | cons x s ih =>
      rw [Template.code] at ih ⊢
      cases x with
      | digit c hc => simpa [Template.fill] using ih
      | token u =>
        rw [Template.fill, List.length_append, u.length_code, placeholderWidth, List.length_cons]
        omega
  exact @scanFrom_code actual _ 0 [] t (Nat.lt_succ_of_le (hlen t))

end Provenance.Bytecode
