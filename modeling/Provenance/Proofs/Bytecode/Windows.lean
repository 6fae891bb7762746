import Mathlib.Data.Nat.Find
import Provenance.Bytecode.Link
import Provenance.Proofs.Text.Occurrences

/-!
# Windows

In any text, well-formed or not, the leftmost mark begins a window of a placeholder's width, and the next
window begins at the leftmost mark that is not before the end of this one (`WindowsFrom`). So the marks
alone decide where the windows are: there is one list of them, every mark is in one (`WindowsFrom.covers`),
and no more of them fit into the text than its length allows (`WindowsFrom.length_le`).
-/

namespace Provenance.Bytecode

open Text

variable {code placeholder : List Char} {start k : Nat} {offsets other : List Nat}

/-! ## Marks and placeholders -/

/-- A mark stands in the code at byte `k`. -/
def MarkAt (k : Nat) (code : List Char) : Prop := StandsAt mark k code

/-- A mark takes three bytes of the code. -/
theorem MarkAt.lt_byteLength (h : MarkAt k code) : k + 3 ≤ byteLength code := by
  obtain ⟨before, after, rfl, rfl⟩ := h
  have hthree : byteLength mark = 3 := by decide
  rw [byteLength_append, byteLength_append, hthree]
  omega

/-- A placeholder, which need not be a token: it has a mark and a placeholder's width. -/
structure IsMarked (placeholder : List Char) : Prop where
  mark_prefix : mark <+: placeholder
  width : byteLength placeholder = placeholderWidth

theorem IsMarked.ne_nil (h : IsMarked placeholder) : placeholder ≠ [] := by
  rintro rfl
  exact absurd h.width (by decide)

/-- Where a placeholder stands there is a mark. -/
theorem IsMarked.markAt (h : IsMarked placeholder) (hstands : StandsAt placeholder k code) :
    MarkAt k code := by
  obtain ⟨before, after, rfl, hb⟩ := hstands
  obtain ⟨more, hmore⟩ := h.mark_prefix
  exact ⟨before, more ++ after, by rw [← hmore, List.append_assoc], hb⟩

/-! ## One window -/

/-- The text of the window that begins at an offset, if it is within the code and both its ends are
between two characters. -/
def windowAt? (code : List Char) (offset : Nat) : Option (List Char) :=
  slice? offset (offset + placeholderWidth) code

theorem windowAt?_eq_some_iff :
    windowAt? code k = some placeholder ↔
      StandsAt placeholder k code ∧ byteLength placeholder = placeholderWidth := by
  rw [windowAt?, slice?_eq_some_iff]
  constructor
  · rintro ⟨before, after, hcode, hbefore, hwidth⟩
    exact ⟨⟨before, after, hcode, hbefore⟩, hwidth⟩
  · rintro ⟨⟨before, after, hcode, hbefore⟩, hwidth⟩
    exact ⟨before, after, hcode, hbefore, hwidth⟩

/-- The text of a window that begins at a mark is a placeholder. -/
theorem isMarked_of_windowAt? (hmark : MarkAt k code) (h : windowAt? code k = some placeholder) :
    IsMarked placeholder := by
  obtain ⟨hstands, hwidth⟩ := windowAt?_eq_some_iff.1 h
  refine ⟨?_, hwidth⟩
  -- of two beginnings of one text the one with fewer bytes begins the other
  obtain ⟨tail, hdrop, htail⟩ := standsAt_iff_drop?.1 hmark
  obtain ⟨tail', hdrop', htail'⟩ := standsAt_iff_drop?.1 hstands
  obtain rfl : tail = tail' := Option.some.inj (hdrop.symm.trans hdrop')
  rcases List.prefix_or_prefix_of_prefix htail htail' with hprefix | ⟨more, hmore⟩
  · exact hprefix
  · have hlen := congrArg byteLength hmore
    have hthree : byteLength mark = 3 := by decide
    rw [byteLength_append, hwidth, hthree, placeholderWidth] at hlen
    omega

/-! ## All windows -/

/-- The offsets of the windows of a code from byte `start` on. -/
inductive WindowsFrom (code : List Char) : (start : Nat) → (offsets : List Nat) → Prop where
  | nil {start : Nat} (hno : ∀ k, start ≤ k → ¬ MarkAt k code) : WindowsFrom code start []
  | cons {start offset : Nat} {offsets : List Nat} (hle : start ≤ offset) (hmark : MarkAt offset code)
      (hleft : ∀ k, start ≤ k → k < offset → ¬ MarkAt k code)
      (hrest : WindowsFrom code (offset + placeholderWidth) offsets) :
      WindowsFrom code start (offset :: offsets)

theorem exists_windowsFrom (code : List Char) (start : Nat) :
    ∃ offsets, WindowsFrom code start offsets := by
  -- the bytes that are left get fewer
  induction hleft : byteLength code - start using Nat.strong_induction_on generalizing start with
  | _ n ih =>
    by_cases hsome : ∃ k, start ≤ k ∧ MarkAt k code
    · classical
      obtain ⟨hle, hmark⟩ := Nat.find_spec hsome
      have hend := hmark.lt_byteLength
      have hwidth : 0 < placeholderWidth := by decide
      obtain ⟨offsets, hrest⟩ := ih _ (by omega) (Nat.find hsome + placeholderWidth) rfl
      refine ⟨_, .cons hle hmark (fun k hk hlt hmark' => ?_) hrest⟩
      exact Nat.find_min hsome hlt ⟨hk, hmark'⟩
    · exact ⟨[], .nil fun k hk hmark => hsome ⟨k, hk, hmark⟩⟩

theorem WindowsFrom.unique (h : WindowsFrom code start offsets) (h' : WindowsFrom code start other) :
    other = offsets := by
  induction h generalizing other with
  | nil hno =>
    cases h' with
    | nil => rfl
    | cons hle hmark => exact absurd hmark (hno _ hle)
  | @cons start offset offsets hle hmark hleft hrest ih =>
    cases h' with
    | nil hno => exact absurd hmark (hno _ hle)
    | @cons _ offset' _ hle' hmark' hleft' hrest' =>
      obtain rfl : offset' = offset := by
        rcases Nat.lt_trichotomy offset' offset with hlt | heq | hlt
        · exact absurd hmark' (hleft _ hle' hlt)
        · exact heq
        · exact absurd hmark (hleft' _ hle hlt)
      rw [ih hrest']

/-- All windows but the last are as wide as a placeholder, and the last holds a mark. -/
theorem WindowsFrom.length_le (h : WindowsFrom code start offsets) :
    placeholderWidth * offsets.length ≤ byteLength code + 37 - start := by
  induction h with
  | nil => exact Nat.zero_le _
  | cons hle hmark hleft hrest ih =>
    have hend := hmark.lt_byteLength
    rw [List.length_cons, Nat.mul_succ]
    simp only [placeholderWidth] at ih ⊢
    omega

theorem WindowsFrom.markAt (h : WindowsFrom code start offsets) (hk : k ∈ offsets) : MarkAt k code := by
  induction h with
  | nil => cases hk
  | cons _ hmark _ _ ih =>
    rcases List.mem_cons.1 hk with rfl | hk
    · exact hmark
    · exact ih hk

/-- Every mark begins in one of the windows. -/
theorem WindowsFrom.covers (h : WindowsFrom code start offsets) (hmark : MarkAt k code) (hle : start ≤ k) :
    ∃ offset ∈ offsets, offset ≤ k ∧ k < offset + placeholderWidth := by
  induction h with
  | nil hno => exact absurd hmark (hno k hle)
  | @cons start offset offsets _ _ hleft _ ih =>
    have hge : offset ≤ k := by
      by_contra hlt
      exact hleft k hle (Nat.lt_of_not_le hlt) hmark
    by_cases hlt : k < offset + placeholderWidth
    · exact ⟨offset, List.mem_cons_self, hge, hlt⟩
    · obtain ⟨next, hnext, hwindow⟩ := ih (Nat.le_of_not_lt hlt)
      exact ⟨next, List.mem_cons_of_mem _ hnext, hwindow⟩

end Provenance.Bytecode
