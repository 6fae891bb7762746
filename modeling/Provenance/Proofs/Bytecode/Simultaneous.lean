import Provenance.Proofs.Bytecode.Linking
import Provenance.Proofs.Text.Pattern

/-!
# Linking as one substitution

Placeholders give way to their addresses one after the other, each wherever the pattern of its text
matches. For a template this comes to one substitution of all tokens at once, in whatever order they
are replaced, and no pattern fails (`link_code_simultaneous`).
-/

namespace Provenance.Bytecode

open Text

/-! ## Replacing by patterns -/

/-- Why a template cannot be linked by patterns. -/
inductive PatternError where
  | link (error : LinkError)
  /-- The placeholder has no pattern. -/
  | pattern (placeholder : List Char)

/-- Puts an address in the places that the pattern of its placeholder matches. -/
def replaceMatches (code : List Char) (entry : List Char × List Char) :
    Except PatternError (List Char) :=
  match Pattern.literal? (Pattern.escape entry.1) with
  | none => .error (.pattern entry.1)
  | some text => .ok (replaceAll text entry.2 code)

/-- Links a template by the patterns of its placeholders. -/
def linkByPatterns (template actual : List Char) : Except PatternError (List Char) := do
  let addresses ← (collect template actual).mapError .link
  addresses.foldlM replaceMatches template

theorem foldlM_replaceMatches (addresses : Addresses) (code : List Char) :
    addresses.foldlM replaceMatches code = .ok (substitute addresses code) := by
  induction addresses generalizing code with
  | nil => rfl
  | cons entry addresses ih =>
    have hfirst : replaceMatches code entry = .ok (replaceAll entry.1 entry.2 code) := by
      rw [replaceMatches, Pattern.literal?_escape]
    rw [List.foldlM_cons, hfirst]
    exact ih _

/-- No pattern ever fails, and each matches its placeholder only. -/
theorem linkByPatterns_eq (template actual : List Char) :
    linkByPatterns template actual = (link template actual).mapError .link := by
  rw [linkByPatterns, link]
  cases collect template actual with
  | error e => rfl
  | ok addresses => exact foldlM_replaceMatches addresses template

/-! ## First places in the text -/

namespace Template

/-- The text of a token occurs first where the token stands first. -/
theorem First.find?_code {t pre : Template} {u : Token} (h : t.First pre u) :
    find? u.code t.code = some pre.width := by
  obtain ⟨hno, post, rfl⟩ := h
  refine find?_eq_some_iff.2 ⟨code pre, code post, ?_, byteLength_code, ?_⟩
  · simp only [code, fill_append, fill]
  · exact clean_code (t := .token u :: post) hno

end Template

/-! ## Substitution at once -/

open Template in
/-- The deployed code holds the address of each token where the token's text occurs first. -/
theorem agrees_iff_find? {t : Template} {actual : List Char} {σ : Token → Digits} :
    t.Agrees actual σ ↔ ∀ u, .token u ∈ t → ∃ offset, find? u.code t.code = some offset ∧
      slice? offset (offset + placeholderWidth) actual = some (σ u).text := by
  constructor
  · intro h u hu
    obtain ⟨pre, hpre⟩ := exists_first hu
    exact ⟨pre.width, hpre.find?_code, h pre u hpre⟩
  · intro h pre u hpre
    have hmem : .token u ∈ t := by
      obtain ⟨-, post, rfl⟩ := hpre
      exact List.mem_append_right pre List.mem_cons_self
    obtain ⟨offset, hfind, hslice⟩ := h u hmem
    rw [hpre.find?_code, Option.some.injEq] at hfind
    rwa [hfind]

/-- A template can be linked exactly if the deployed code holds 40 digits where each of its tokens
occurs first. Then all tokens are replaced at once by these digits, whatever the order in which the
placeholders are gone through, and replacing by patterns is the same and never fails. -/
theorem link_code_simultaneous (t : Template) (actual : List Char) :
    ((∃ linked, link t.code actual = .ok linked) ↔
      ∀ u, .token u ∈ t → ∃ offset digits, find? u.code t.code = some offset ∧
        slice? offset (offset + placeholderWidth) actual = some digits ∧
        digits.all Hex.isDigit = true) ∧
    (∀ linked, link t.code actual = .ok linked → ∃ σ : Token → Digits,
      (∀ u, .token u ∈ t → ∃ offset, find? u.code t.code = some offset ∧
        slice? offset (offset + placeholderWidth) actual = some (σ u).text) ∧
      linked = t.linked σ ∧
      ∀ addresses order, collect t.code actual = .ok addresses → order.Perm addresses →
        substitute order t.code = t.linked σ) ∧
    linkByPatterns t.code actual = (link t.code actual).mapError .link ∧
    ∀ placeholder, linkByPatterns t.code actual ≠ .error (.pattern placeholder) := by
  refine ⟨⟨?_, ?_⟩, ?_, linkByPatterns_eq _ _, ?_⟩
  · rintro ⟨linked, hlink⟩ u hu
    obtain ⟨σ, hσ, -⟩ := link_code_eq_ok_iff.1 hlink
    obtain ⟨offset, hfind, hslice⟩ := agrees_iff_find?.1 hσ u hu
    exact ⟨offset, _, hfind, hslice, (σ u).text_digits⟩
  · intro h
    rcases @link_code_cases t actual with ⟨σ, hσ⟩ | ⟨e, pre, u, -, hpre, haddr⟩
    · exact ⟨_, link_of_agrees hσ⟩
    · -- the token without an address would have one
      have hmem : .token u ∈ t := by
        obtain ⟨-, post, rfl⟩ := hpre
        exact List.mem_append_right pre List.mem_cons_self
      obtain ⟨offset, digits, hfind, hslice, hdigits⟩ := h u hmem
      rw [hpre.find?_code, Option.some.injEq] at hfind
      rw [addressAt, hfind, hslice] at haddr
      simp [hdigits] at haddr
  · intro linked hlink
    obtain ⟨σ, hσ, rfl⟩ := link_code_eq_ok_iff.1 hlink
    refine ⟨σ, agrees_iff_find?.1 hσ, rfl, ?_⟩
    intro addresses order haddresses hperm
    obtain ⟨d, hcollect, hserve⟩ := collect_of_agrees hσ
    rw [haddresses, Except.ok.injEq] at hcollect
    subst hcollect
    exact substitute_of_serve (hserve.perm hperm)
  · intro placeholder
    rw [linkByPatterns_eq]
    cases link t.code actual <;> simp [Except.mapError]

end Provenance.Bytecode
