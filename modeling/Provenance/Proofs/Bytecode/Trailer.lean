import Provenance.Bytecode.Trailer
import Provenance.Proofs.Hex
import Provenance.Proofs.Text.Replacement

/-!
# Trailers

A trailer tells its own length, so taking it off a code undoes putting it on
(`stripTrailer_append`), and a code that is not left as it is ended in one (`stripTrailer_cases`).
-/

namespace Provenance.Bytecode

open Text

/-- Some bytes, then their number divided by two in four digits. -/
def IsTrailer (t : List Char) : Prop :=
  ∃ metadata field, t = metadata ++ field ∧ field.length = lengthWidth ∧
    field.all Hex.isDigit = true ∧ byteLength metadata = 2 * Hex.value field

/-- A trailer that is long enough to be taken off when nothing stands before it. -/
def IsWholeTrailer (t : List Char) : Prop := IsTrailer t ∧ 6 ≤ byteLength t

variable {b c t : List Char}

/-- A code announces the number in its last four characters, when these are digits. -/
private theorem announced?_eq_some_iff {n : Nat} (h : lengthWidth ≤ byteLength c) :
    announced? c = some n ↔
      ∃ before field, c = before ++ field ∧ field.length = lengthWidth ∧
        field.all Hex.isDigit = true ∧ Hex.value field = n := by
  rw [announced?]
  constructor
  · intro ha
    cases hf : drop? (byteLength c - lengthWidth) c with
    | none => simp [hf] at ha
    | some field =>
      obtain ⟨before, rfl, hb⟩ := drop?_eq_some_iff.1 hf
      by_cases hd : field.all Hex.isDigit = true
      · simp only [hf, hd, if_true, Option.some.injEq] at ha
        rw [byteLength_append] at hb h
        refine ⟨before, field, rfl, ?_, hd, ha⟩
        rw [← Hex.byteLength_of_digits hd]
        omega
      · simp only [hf, hd, Bool.false_eq_true, if_false, reduceCtorEq] at ha
  · rintro ⟨before, field, rfl, hlen, hd, rfl⟩
    have hf : drop? (byteLength (before ++ field) - lengthWidth) (before ++ field) = some field := by
      refine drop?_eq_some_iff.2 ⟨before, rfl, ?_⟩
      rw [byteLength_append, Hex.byteLength_of_digits hd, hlen, Nat.add_sub_cancel]
    simp only [hf, hd, if_true]

/-- Taking a trailer off undoes putting it on. -/
theorem stripTrailer_append (ht : IsTrailer t) (h6 : 6 ≤ byteLength (b ++ t)) :
    stripTrailer (b ++ t) = b := by
  have h4 : lengthWidth ≤ byteLength (b ++ t) := Nat.le_trans (by decide) h6
  obtain ⟨metadata, field, rfl, hlen, hd, hm⟩ := ht
  have hfield : byteLength field = lengthWidth := by rw [Hex.byteLength_of_digits hd, hlen]
  have ha : announced? (b ++ (metadata ++ field)) = some (Hex.value field) :=
    (announced?_eq_some_iff h4).2 ⟨b ++ metadata, field, by simp, hlen, hd, rfl⟩
  have hwidth : Hex.value field * 2 + lengthWidth = byteLength (metadata ++ field) := by
    rw [byteLength_append, hm, hfield, Nat.mul_comm]
  have htake : take? (byteLength (b ++ (metadata ++ field)) - byteLength (metadata ++ field))
      (b ++ (metadata ++ field)) = some b := by
    refine take?_eq_some_iff.2 ⟨metadata ++ field, rfl, ?_⟩
    rw [byteLength_append, Nat.add_sub_cancel]
  have hle : ¬ byteLength (b ++ (metadata ++ field)) < byteLength (metadata ++ field) := by
    rw [byteLength_append]
    omega
  rw [stripTrailer, if_neg (by omega), ha]
  simp only [hwidth, if_neg hle, htake, Option.getD_some]

/-- A code is left as it is, or a trailer was taken off. -/
theorem stripTrailer_cases (c : List Char) :
    stripTrailer c = c ∨ ∃ t, c = stripTrailer c ++ t ∧ IsTrailer t ∧ 6 ≤ byteLength c := by
  by_cases h6 : byteLength c < 6
  · exact .inl (by rw [stripTrailer, if_pos h6])
  · have h4 : lengthWidth ≤ byteLength c := Nat.le_trans (by decide) (Nat.le_of_not_lt h6)
    cases ha : announced? c with
    | none => exact .inl (by rw [stripTrailer, if_neg h6, ha])
    | some n =>
      have hstrip : stripTrailer c = if byteLength c < n * 2 + lengthWidth then c
          else (take? (byteLength c - (n * 2 + lengthWidth)) c).getD c := by
        rw [stripTrailer, if_neg h6, ha]
      by_cases hw : byteLength c < n * 2 + lengthWidth
      · exact .inl (by rw [hstrip, if_pos hw])
      · rw [hstrip, if_neg hw]
        cases htake : take? (byteLength c - (n * 2 + lengthWidth)) c with
        | none => exact .inl rfl
        | some part =>
          obtain ⟨t, hc, hpart⟩ := take?_eq_some_iff.1 htake
          refine .inr ⟨t, by rw [Option.getD_some, ← hc], ?_, Nat.le_of_not_lt h6⟩
          obtain ⟨before, field, hc', hlen, hd, rfl⟩ := (announced?_eq_some_iff h4).1 ha
          have hfield : byteLength field = lengthWidth := by
            rw [Hex.byteLength_of_digits hd, hlen]
          have ht : byteLength t = Hex.value field * 2 + lengthWidth := by
            have hsum := congrArg byteLength hc
            rw [byteLength_append] at hsum
            omega
          -- the length field lies within what was taken off
          rcases List.append_eq_append_iff.1 (hc.symm.trans hc') with ⟨m, -, rfl⟩ | ⟨m, -, hm⟩
          · refine ⟨m, field, rfl, hlen, hd, ?_⟩
            rw [byteLength_append] at ht
            omega
          · have hsum := congrArg byteLength hm
            rw [byteLength_append] at hsum
            obtain rfl : m = [] := byteLength_eq_zero.1 (by omega)
            exact ⟨[], field, by simpa using hm.symm, hlen, hd, by rw [byteLength_nil]; omega⟩

/-- Nothing is left exactly of an empty code and of a code that is a trailer. -/
theorem stripTrailer_eq_nil_iff : stripTrailer c = [] ↔ c = [] ∨ IsWholeTrailer c := by
  constructor
  · intro h
    rcases stripTrailer_cases c with hc | ⟨t, hc, ht, h6⟩
    · exact .inl (hc.symm.trans h)
    · rw [h, List.nil_append] at hc
      exact .inr ⟨hc ▸ ht, h6⟩
  · rintro (rfl | ⟨ht, h6⟩)
    · rfl
    · exact @stripTrailer_append [] c ht h6

end Provenance.Bytecode
