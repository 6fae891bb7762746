import Provenance.Bytecode.Link
import Provenance.Proofs.Hex
import Provenance.Proofs.Text.Replacement

/-!
# Templates

Well-formed code to be linked: digits, and tokens of the width of an address in the places of
library addresses. A template is kept as the list of its symbols, and `fill` writes it with any text
for each token, so that `code` (its own text) and `linked` (with an address for each token) are two
fillings of one template.
-/

namespace Provenance.Bytecode

open Text

/-! ## Tokens and addresses -/

/-- What ends a token. -/
def closing : List Char := ['$', '_', '_']

/-- A token stands for the address of a library, which its digits identify. -/
structure Token where
  name : List Char
  length_name : name.length = 34
  name_digits : name.all Hex.isDigit = true
  deriving DecidableEq

/-- The text of a token. -/
def Token.code (u : Token) : List Char := mark ++ (u.name ++ closing)

/-- The digits of an address. -/
structure Digits where
  text : List Char
  length_text : text.length = placeholderWidth
  text_digits : text.all Hex.isDigit = true
  deriving DecidableEq

/-- The token whose digits are all the same. -/
def Token.repeating (c : Char) (h : Hex.isDigit c = true) : Token where
  name := List.replicate 34 c
  length_name := List.length_replicate
  name_digits := by simp [h]

/-- The address whose digits are all the same. -/
def Digits.repeating (c : Char) (h : Hex.isDigit c = true) : Digits where
  text := List.replicate placeholderWidth c
  length_text := List.length_replicate
  text_digits := by simp [h]

instance : Inhabited Digits where
  default := .repeating '0' rfl

@[simp] theorem Token.length_code (u : Token) : u.code.length = placeholderWidth := by
  simp [Token.code, mark, closing, u.length_name, placeholderWidth]

@[simp] theorem Token.byteLength_code (u : Token) : byteLength u.code = placeholderWidth := by
  rw [Token.code, byteLength_append, byteLength_append, Hex.byteLength_of_digits u.name_digits,
    u.length_name]
  decide

@[simp] theorem Digits.byteLength_text (a : Digits) : byteLength a.text = placeholderWidth := by
  rw [Hex.byteLength_of_digits a.text_digits, a.length_text]

theorem Token.code_inj {u v : Token} : u.code = v.code ↔ u = v := by
  constructor
  · intro h
    have hname : u.name = v.name := by
      have h' : u.name ++ closing = v.name ++ closing := List.append_cancel_left h
      exact List.append_cancel_right h'
    cases u
    cases v
    simpa using hname
  · rintro rfl
    rfl

/-- Of two texts of one width only the equal one is a prefix, whatever follows. -/
theorem Token.prefix_code_append {u v : Token} {rest : List Char}
    (h : u.code <+: v.code ++ rest) : u = v := by
  have hlen : u.code.length = v.code.length := by simp
  exact Token.code_inj.1
    ((List.prefix_of_prefix_length_le h (List.prefix_append _ _) (Nat.le_of_eq hlen)).eq_of_length hlen)

/-- A token is no text of digits. -/
theorem Digits.text_ne_code (a : Digits) (u : Token) : a.text ≠ u.code := by
  intro h
  have hd : u.code.all Hex.isDigit = true := h ▸ a.text_digits
  simp [Token.code, mark, Hex.isDigit] at hd

/-! ## Templates and their fillings -/

/-- A digit, or a token. -/
inductive Symbol where
  | digit (c : Char) (h : Hex.isDigit c = true)
  | token (u : Token)
  deriving DecidableEq

/-- The number of bytes of a symbol. -/
def Symbol.width : Symbol → Nat
  | .digit _ _ => 1
  | .token _ => placeholderWidth

/-- A well-formed template. -/
abbrev Template := List Symbol

namespace Template

/-- The template with a text for each token. -/
def fill (ρ : Token → List Char) : Template → List Char
  | [] => []
  | .digit c _ :: t => c :: fill ρ t
  | .token u :: t => ρ u ++ fill ρ t

/-- The text of the template itself. -/
def code (t : Template) : List Char := t.fill Token.code

/-- The template with an address in place of each token. -/
def linked (σ : Token → Digits) (t : Template) : List Char := t.fill fun u => (σ u).text

/-- The number of bytes of each filling. -/
def width : Template → Nat
  | [] => 0
  | x :: t => x.width + width t

variable {ρ ρ' : Token → List Char} {σ τ : Token → Digits} {s t : Template}

@[simp] theorem fill_append : fill ρ (s ++ t) = fill ρ s ++ fill ρ t := by
  induction s with
  | nil => rfl
  | cons x s ih => cases x <;> simp [fill, ih]

/-- Only the texts of the template's own tokens matter. -/
theorem fill_congr (h : ∀ u, .token u ∈ t → ρ u = ρ' u) : t.fill ρ = t.fill ρ' := by
  induction t with
  | nil => rfl
  | cons x t ih =>
    have ht : fill ρ t = fill ρ' t := ih fun u hu => h u (List.mem_cons_of_mem _ hu)
    cases x with
    | digit c hc => rw [fill, fill, ht]
    | token u => rw [fill, fill, ht, h u List.mem_cons_self]

theorem byteLength_fill (h : ∀ u, byteLength (ρ u) = placeholderWidth) :
    byteLength (t.fill ρ) = t.width := by
  induction t with
  | nil => rfl
  | cons x t ih =>
    cases x with
    | digit c hc => rw [fill, byteLength_cons, Hex.utf8Size_of_isDigit hc, ih, width, Symbol.width]
    | token u => rw [fill, byteLength_append, h, ih, width, Symbol.width]

@[simp] theorem byteLength_code : byteLength t.code = t.width := byteLength_fill Token.byteLength_code

@[simp] theorem byteLength_linked : byteLength (t.linked σ) = t.width :=
  byteLength_fill fun u => (σ u).byteLength_text

/-- A linked template has digits only. -/
theorem linked_digits : (t.linked σ).all Hex.isDigit = true := by
  induction t with
  | nil => rfl
  | cons x t ih =>
    rw [linked] at ih ⊢
    cases x with
    | digit c hc => rw [fill, List.all_cons, hc, ih, Bool.true_and]
    | token u => rw [fill, List.all_append, (σ u).text_digits, ih, Bool.true_and]

/-- A text of digits is a template without tokens. -/
theorem exists_of_digits {cs : List Char} (h : cs.all Hex.isDigit = true) :
    ∃ t : Template, (∀ u, .token u ∉ t) ∧ ∀ ρ, t.fill ρ = cs := by
  induction cs with
  | nil => exact ⟨[], by simp, fun _ => rfl⟩
  | cons c cs ih =>
    obtain ⟨hc, hcs⟩ := Bool.and_eq_true_iff.1 h
    obtain ⟨t, hno, ht⟩ := ih hcs
    exact ⟨.digit c hc :: t, by simpa using hno, fun ρ => by rw [fill, ht]⟩

end Template

end Provenance.Bytecode
