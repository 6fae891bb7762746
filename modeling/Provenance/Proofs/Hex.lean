import Provenance.Address
import Provenance.Text.Offset

/-!
# Hexadecimal text

Digits take one byte each, so in hexadecimal text bytes are characters, and no digit is a mark.
-/

namespace Provenance.Hex

open Text

theorem isDigit_iff {c : Char} :
    isDigit c = true ↔
      (48 ≤ c.toNat ∧ c.toNat ≤ 57) ∨ (97 ≤ c.toNat ∧ c.toNat ≤ 102) ∨
        (65 ≤ c.toNat ∧ c.toNat ≤ 70) := by
  simp only [isDigit, Bool.or_eq_true, Bool.and_eq_true, decide_eq_true_eq, or_assoc]
  exact Iff.rfl

/-- Digits are written in one byte. -/
theorem utf8Size_of_isDigit {c : Char} (h : isDigit c = true) : c.utf8Size = 1 := by
  rw [Char.utf8Size_eq_one_iff, UInt32.le_iff_toNat_le]
  have hc : c.toNat ≤ 127 := by
    have := isDigit_iff.1 h
    omega
  exact hc

theorem ne_underscore_of_isDigit {c : Char} (h : isDigit c = true) : c ≠ '_' := by
  rintro rfl
  exact absurd h (by decide)

theorem ne_dollar_of_isDigit {c : Char} (h : isDigit c = true) : c ≠ '$' := by
  rintro rfl
  exact absurd h (by decide)

/-- In hexadecimal text bytes are characters. -/
theorem byteLength_of_digits {cs : List Char} (h : cs.all isDigit = true) :
    byteLength cs = cs.length := by
  induction cs with
  | nil => rfl
  | cons c cs ih =>
    obtain ⟨hc, hcs⟩ := Bool.and_eq_true_iff.1 h
    rw [byteLength_cons, utf8Size_of_isDigit hc, ih hcs, List.length_cons, Nat.add_comm]

end Provenance.Hex
