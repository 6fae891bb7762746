import Mathlib.Algebra.Ring.Nat
import Provenance.Proofs.Bytecode.Trailer
import Provenance.Proofs.Text.Lowercase

/-!
# The length field

Four digits of either letter case write the number of bytes in a trailer. Read by its number, a trailer
is put on a code and taken off again without loss (`stripTrailer_inverse`): a code has one trailer at
most, what is left is what stands before it, and a code without one is left as it is.
-/

namespace Provenance

open Text

/-! ## Numbers in digits -/

namespace Hex

/-- A number in so many small digits, of which the last one counts ones. -/
def digits : (width : Nat) → (n : Nat) → List Char
  | 0, _ => []
  | width + 1, n => digits width (n / 16) ++ [Nat.digitChar (n % 16)]

theorem digitValue_eq (c : Char) :
    digitValue c = if 48 ≤ c.toNat ∧ c.toNat ≤ 57 then c.toNat - 48
      else if 97 ≤ c.toNat ∧ c.toNat ≤ 102 then c.toNat - 97 + 10
      else c.toNat - 65 + 10 := by
  simp only [digitValue, Bool.and_eq_true, decide_eq_true_eq]
  rfl

theorem digitValue_lt {c : Char} (h : isDigit c = true) : digitValue c < 16 := by
  have hc := isDigit_iff.1 h
  rw [digitValue_eq]
  split
  · omega
  · split <;> omega

/-- The digits of a value are those whose small form writes it. -/
theorem toLower_eq_digitChar_iff {c : Char} {k : Nat} (hk : k < 16) :
    c.toLower = Nat.digitChar k ↔ isDigit c = true ∧ digitValue c = k := by
  have hdigit : ∀ k < 16, (Nat.digitChar k).toNat = if k < 10 then 48 + k else 87 + k := by decide
  rw [← Char.toNat_inj, toNat_toLower, hdigit k hk, isDigit_iff, digitValue_eq]
  split <;> split <;> split <;> try split
  all_goals omega

theorem value_append_singleton (cs : List Char) (c : Char) :
    value (cs ++ [c]) = value cs * 16 + digitValue c := by
  simp [value, List.foldl_append]

/-- What writes a number in digits of either case is what is read as this number. -/
theorem writes_iff {field : List Char} {width n : Nat} :
    n < 16 ^ width ∧ asciiLowercase field = digits width n ↔
      field.length = width ∧ field.all isDigit = true ∧ value field = n := by
  induction width generalizing field n with
  | zero =>
    rw [Nat.pow_zero, Nat.lt_one_iff, digits, asciiLowercase, List.map_eq_nil_iff,
      List.length_eq_zero_iff]
    constructor
    · rintro ⟨rfl, rfl⟩
      exact ⟨rfl, rfl, rfl⟩
    · rintro ⟨rfl, -, rfl⟩
      exact ⟨rfl, rfl⟩
  | succ width ih =>
    rcases List.eq_nil_or_concat field with rfl | ⟨cs, c, rfl⟩
    · simp [digits, asciiLowercase]
    · have hbound : n < 16 ^ (width + 1) ↔ n / 16 < 16 ^ width := by
        rw [Nat.div_lt_iff_lt_mul (by decide), Nat.pow_succ]
      have hsmall : asciiLowercase (cs ++ [c]) = digits (width + 1) n ↔
          asciiLowercase cs = digits width (n / 16) ∧ c.toLower = Nat.digitChar (n % 16) := by
        rw [asciiLowercase, List.map_append, List.map_singleton, digits]
        constructor
        · intro h
          obtain ⟨hcs, hc⟩ := List.append_inj' h rfl
          exact ⟨hcs, List.singleton_inj.1 hc⟩
        · rintro ⟨hcs, hc⟩
          rw [← hcs, hc, asciiLowercase]
      have hlast := @toLower_eq_digitChar_iff c (n % 16) (Nat.mod_lt n (by decide))
      rw [List.concat_eq_append, hbound, hsmall, ← and_assoc, ih, hlast, value_append_singleton,
        List.length_append, List.length_singleton, List.all_append, List.all_cons, List.all_nil,
        Bool.and_true, Bool.and_eq_true, Nat.add_right_cancel_iff]
      constructor
      · rintro ⟨⟨hlen, hcs, hvalue⟩, hc, hdigit⟩
        exact ⟨hlen, ⟨hcs, hc⟩, by omega⟩
      · rintro ⟨hlen, ⟨hcs, hc⟩, hn⟩
        have hlt := digitValue_lt hc
        exact ⟨⟨hlen, hcs, by omega⟩, hc, by omega⟩

end Hex

namespace Bytecode

variable {c t : List Char}

/-! ## Trailers by their number -/

/-- Metadata of `n` bytes, written in two characters each, and then this number in four digits of
either case. -/
def IsTrailerOf (n : Nat) (t : List Char) : Prop :=
  n < 65536 ∧ ∃ metadata field, t = metadata ++ field ∧ byteLength metadata = 2 * n ∧
    asciiLowercase field = Hex.digits lengthWidth n

theorem isTrailer_iff : IsTrailer t ↔ ∃ n, IsTrailerOf n t := by
  constructor
  · rintro ⟨metadata, field, rfl, hlen, hd, hm⟩
    obtain ⟨hlt, hfield⟩ := Hex.writes_iff.2 ⟨hlen, hd, rfl⟩
    exact ⟨Hex.value field, hlt, metadata, field, rfl, hm, hfield⟩
  · rintro ⟨n, hlt, metadata, field, rfl, hm, hfield⟩
    obtain ⟨hlen, hd, rfl⟩ := Hex.writes_iff.1 ⟨hlt, hfield⟩
    exact ⟨metadata, field, rfl, hlen, hd, hm⟩

/-! ## Differences -/

/-- The difference of two numbers, when it is not negative. -/
def minus? (a b : Nat) : Option Nat := if b ≤ a then some (a - b) else none

/-- Takes a trailer off, and gives nothing if a place in the code would come out negative. -/
def stripChecked? (code : List Char) : Option (List Char) :=
  if byteLength code < 6 then some code
  else do
    let start ← minus? (byteLength code) lengthWidth
    match drop? start code with
    | none => return code
    | some field =>
      if field.all Hex.isDigit then
        let width := Hex.value field * 2 + lengthWidth
        if byteLength code < width then return code
        else
          let stop ← minus? (byteLength code) width
          return (take? stop code).getD code
      else return code

/-- No place in the code comes out negative. -/
theorem stripChecked?_eq (code : List Char) : stripChecked? code = some (stripTrailer code) := by
  by_cases h6 : byteLength code < 6
  · rw [stripChecked?, stripTrailer, if_pos h6, if_pos h6]
  · have hstart : minus? (byteLength code) lengthWidth = some (byteLength code - lengthWidth) :=
      if_pos (Nat.le_trans (by decide) (Nat.le_of_not_lt h6))
    rw [stripChecked?, stripTrailer, announced?, if_neg h6, if_neg h6, hstart]
    simp only [Option.bind_eq_bind, Option.bind_some, Option.pure_def]
    cases drop? (byteLength code - lengthWidth) code with
    | none => rfl
    | some field =>
      cases hd : field.all Hex.isDigit with
      | false => simp only [hd, Bool.false_eq_true, if_false]
      | true =>
        simp only [hd, if_true]
        by_cases hw : byteLength code < Hex.value field * 2 + lengthWidth
        · rw [if_pos hw, if_pos hw]
        · have hstop : minus? (byteLength code) (Hex.value field * 2 + lengthWidth)
              = some (byteLength code - (Hex.value field * 2 + lengthWidth)) :=
            if_pos (Nat.le_of_not_lt hw)
          rw [if_neg hw, if_neg hw, hstop, Option.bind_some]

/-! ## What is left -/

/-- What is left of a code begins it. -/
theorem stripTrailer_prefix (c : List Char) : stripTrailer c <+: c := by
  rcases stripTrailer_cases c with h | ⟨t, h, -, -⟩
  · exact ⟨[], by rw [List.append_nil, h]⟩
  · exact ⟨t, h.symm⟩

/-- A code of six bytes or more that is some text and then a trailer is so in one way, and the text is
left of it. Any other code is left as it is. What is left begins the code, and no place in the code
comes out negative. -/
theorem stripTrailer_inverse (c : List Char) :
    (∀ b t n, c = b ++ t → IsTrailerOf n t → 6 ≤ byteLength c →
      stripTrailer c = b ∧ ∀ b' t' n', c = b' ++ t' → IsTrailerOf n' t' → b' = b) ∧
    ((∀ b t n, c = b ++ t → IsTrailerOf n t → byteLength c < 6) → stripTrailer c = c) ∧
    stripTrailer c <+: c ∧
    stripChecked? c = some (stripTrailer c) := by
  -- each text before a trailer is what is left, so there is one such text
  have hleft : ∀ b t n, c = b ++ t → IsTrailerOf n t → 6 ≤ byteLength c → stripTrailer c = b := by
    rintro b t n rfl ht h6
    exact stripTrailer_append (isTrailer_iff.2 ⟨n, ht⟩) h6
  refine ⟨?_, ?_, stripTrailer_prefix c, stripChecked?_eq c⟩
  · intro b t n hc ht h6
    have hb := hleft b t n hc ht h6
    refine ⟨hb, fun b' t' n' hc' ht' => ?_⟩
    rw [← hb, hleft b' t' n' hc' ht' h6]
  · intro hno
    rcases stripTrailer_cases c with h | ⟨t, hc, ht, h6⟩
    · exact h
    · obtain ⟨n, hn⟩ := isTrailer_iff.1 ht
      exact absurd (hno _ t n hc hn) (Nat.not_lt.2 h6)

/-- A byte of metadata takes two bytes of the text, which may be one character. -/
example : stripTrailer ['6', '0', 'é', '0', '0', '0', '1'] = ['6', '0'] := by decide

end Bytecode

end Provenance
