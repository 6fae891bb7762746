import Mathlib.Tactic.IntervalCases
import Mathlib.Data.Nat.Digits.Defs
import Provenance.Json.Document

/-!
# Strings and integers are read back

The text of a string and the text of an integer of 64 bits are read back as what they were written for, whatever
follows them.
-/

namespace Provenance.Json

open Text (Piece)

variable {fuel : Nat} {rest : Rest}

/-! ## Strings -/

/-- Controls are written as an escape by letter or by number. -/
private theorem stringBody_control {n : Nat} (h : n < 32) :
    stringBody (fuel + 1) ((escapedChar (Char.ofNat n)).map .char ++ rest)
        = (stringBody fuel rest).bind (fun r => .ok (r.1.map (Char.ofNat n :: ·), r.2)) ∧
      passBody (fuel + 1) ((escapedChar (Char.ofNat n)).map .char ++ rest) = passBody fuel rest := by
  -- each of the controls has an escape of its own to be read
  interval_cases n <;> exact ⟨rfl, rfl⟩

/-- One character is read back from its escape, and passed over with it. -/
theorem stringBody_escapedChar (c : Char) :
    stringBody (fuel + 1) ((escapedChar c).map .char ++ rest)
        = (stringBody fuel rest).bind (fun r => .ok (r.1.map (c :: ·), r.2)) ∧
      passBody (fuel + 1) ((escapedChar c).map .char ++ rest) = passBody fuel rest := by
  by_cases hcontrol : c.toNat < 32
  · rw [← Char.ofNat_toNat c]
    exact stringBody_control hcontrol
  · by_cases hquote : c = '"'
    · subst hquote
      exact ⟨rfl, rfl⟩
    · by_cases hback : c = '\\'
      · subst hback
        exact ⟨rfl, rfl⟩
      · have hplain : escapedChar c = [c] := by
          unfold escapedChar
          rw [if_neg hquote, if_neg hback, if_neg (by omega), if_neg (by omega), if_neg (by omega),
            if_neg (by omega), if_neg (by omega), if_neg hcontrol]
        rw [hplain]
        constructor
        · show stringBody (fuel + 1) (.char c :: rest) = _
          rw [stringBody, if_neg hquote, if_neg hback, if_neg hcontrol]
          rfl
        · show passBody (fuel + 1) (.char c :: rest) = _
          rw [passBody, if_neg hquote, if_neg hback, if_neg hcontrol]

theorem stringBody_text (cs : List Char) (hfuel : cs.length < fuel) :
    stringBody fuel ((cs.flatMap escapedChar ++ ['"']).map .char ++ rest) = .ok (some cs, rest) ∧
      passBody fuel ((cs.flatMap escapedChar ++ ['"']).map .char ++ rest) = .ok rest := by
  induction cs generalizing fuel with
  | nil =>
    obtain ⟨fuel, rfl⟩ := Nat.exists_eq_succ_of_ne_zero (Nat.ne_zero_of_lt hfuel)
    exact ⟨rfl, rfl⟩
  | cons c cs ih =>
    obtain ⟨fuel, rfl⟩ := Nat.exists_eq_succ_of_ne_zero (Nat.ne_zero_of_lt hfuel)
    obtain ⟨hbody, hpass⟩ := ih (Nat.lt_of_succ_lt_succ hfuel)
    rw [List.flatMap_cons, List.append_assoc, List.map_append, List.append_assoc,
      (stringBody_escapedChar c).1, (stringBody_escapedChar c).2, hbody, hpass]
    exact ⟨rfl, rfl⟩

theorem length_le_flatMap_escapedChar (cs : List Char) : cs.length ≤ (cs.flatMap escapedChar).length := by
  induction cs with
  | nil => exact Nat.le_refl 0
  | cons c cs ih =>
    have hc : 1 ≤ (escapedChar c).length := by
      unfold escapedChar
      repeat' split
      all_goals simp
    rw [List.flatMap_cons, List.length_append, List.length_cons]
    omega

/-- The text of a string after its opening quote. -/
def stringTail (s : String) : List Char := s.toList.flatMap escapedChar ++ ['"']

/-- A string is read back from its text. -/
theorem string_text (s : String) :
    string ((stringTail s).map .char ++ rest) = .ok (s, rest) ∧
      passString ((stringTail s).map .char ++ rest) = .ok rest := by
  have hfuel : s.toList.length < ((stringTail s).map Piece.char ++ rest).length := by
    have hlength := length_le_flatMap_escapedChar s.toList
    rw [List.length_append, List.length_map, stringTail, List.length_append, List.length_singleton]
    omega
  obtain ⟨hbody, hpass⟩ := @stringBody_text _ rest _ hfuel
  change stringBody _ ((stringTail s).map .char ++ rest) = _ at hbody
  refine ⟨?_, hpass⟩
  rw [string, hbody]
  show Except.ok (String.ofList s.toList, rest) = _
  rw [String.ofList_toList]

/-! ## Integers -/

/-- What follows a value: nothing, or a comma or a closing bracket. -/
def IsDelimited (rest : Rest) : Prop :=
  rest = [] ∨ ∃ c ∈ [',', ']', '\x7d'], ∃ tail, rest = .char c :: tail

/-- A delimiter is part of no number. -/
theorem IsDelimited.not_part (h : IsDelimited rest) :
    digits rest = ([], rest) ∧ fractionDigits rest = .ok ([], rest) ∧
      exponentPart rest = .ok (none, rest) := by
  obtain rfl | ⟨c, hc, tail, rfl⟩ := h
  · exact ⟨rfl, rfl, rfl⟩
  · simp only [List.mem_cons, List.not_mem_nil, or_false] at hc
    obtain rfl | rfl | rfl := hc <;> exact ⟨rfl, rfl, rfl⟩

/-- The value of a digit. -/
def digitValue (c : Char) : Nat := c.toNat - 48

theorem digits_text {cs : List Char} (hcs : ∀ c ∈ cs, c.isDigit = true)
    (hrest : digits rest = ([], rest)) :
    digits (cs.map .char ++ rest) = (cs.map digitValue, rest) := by
  induction cs with
  | nil => exact hrest
  | cons c cs ih =>
    have hdigit : digit? (.char c) = some (digitValue c) := if_pos (hcs c List.mem_cons_self)
    rw [List.map_cons, List.cons_append, digits, hdigit,
      ih fun d hd => hcs d (List.mem_cons_of_mem _ hd)]
    rfl

theorem le_ofDigitChars (cs : List Char) (n : Nat) : n ≤ Nat.ofDigitChars 10 cs n := by
  induction cs generalizing n with
  | nil => exact Nat.le_refl n
  | cons c cs ih =>
    rw [Nat.ofDigitChars_cons]
    have := ih (10 * n + (c.toNat - '0'.toNat))
    omega

/-- Digits are gathered into their value as long as it fits 64 bits. -/
theorem gatherDigits_map {cs : List Char} {n : Nat} (hfits : Nat.ofDigitChars 10 cs n ≤ maxUnsigned) :
    gatherDigits n (cs.map digitValue) = (Nat.ofDigitChars 10 cs n, []) := by
  induction cs generalizing n with
  | nil => rfl
  | cons c cs ih =>
    rw [Nat.ofDigitChars_cons] at hfits ⊢
    have hvalue : n * 10 + digitValue c = 10 * n + (c.toNat - '0'.toNat) := by
      rw [Nat.mul_comm]
      rfl
    have hstep : n * 10 + digitValue c ≤ maxUnsigned := hvalue ▸ (le_ofDigitChars cs _).trans hfits
    rw [List.map_cons, gatherDigits, if_pos hstep, hvalue]
    exact ih hfits

theorem digitValue_digitChar {d : Nat} (h : d < 10) : digitValue d.digitChar = d := by
  interval_cases d <;> rfl

/-- A positive number is not written with a zero in front. -/
theorem naturalText_of_pos {n : Nat} (hn : 0 < n) :
    ∃ c cs, naturalText n = c :: cs ∧ digitValue c ≠ 0 := by
  induction n using Nat.strong_induction_on with
  | _ n ih =>
    rw [naturalText, Nat.toDigits_eq_if (by omega)]
    by_cases hsmall : n < 10
    · rw [if_pos hsmall]
      exact ⟨_, [], rfl, by rw [digitValue_digitChar hsmall]; omega⟩
    · obtain ⟨c, cs, hcs, hc⟩ := ih (n / 10) (by omega) (by omega)
      rw [if_neg hsmall]
      exact ⟨c, cs ++ [(n % 10).digitChar], by rw [← List.cons_append, ← hcs, naturalText], hc⟩

theorem isDigit_of_mem_naturalText {n : Nat} {c : Char} (hc : c ∈ naturalText n) : c.isDigit = true :=
  Nat.isDigit_of_mem_toDigits (by omega) (by omega) hc

/-- The parts of a number that is written without a point. -/
theorem numeral_naturalText {negative : Bool} {n : Nat} (hrest : IsDelimited rest) :
    numeral negative ((naturalText n).map .char ++ rest)
      = .ok (⟨negative, (naturalText n).map digitValue, [], none⟩, rest) := by
  have hwhole : wholeDigits ((naturalText n).map .char ++ rest)
      = .ok ((naturalText n).map digitValue, rest) := by
    rw [wholeDigits, digits_text (fun c => isDigit_of_mem_naturalText) hrest.not_part.1]
    -- a zero in front of other digits would be refused
    obtain rfl | hn := Nat.eq_zero_or_pos n
    · rfl
    · obtain ⟨c, cs, hcs, hc⟩ := naturalText_of_pos hn
      obtain ⟨d, hd⟩ := Nat.exists_eq_succ_of_ne_zero hc
      rw [hcs, List.map_cons, hd]
      cases cs <;> rfl
  rw [numeral, hwhole]
  show ((fractionDigits rest).bind fun f => (exponentPart f.2).bind fun e =>
    .ok ((⟨negative, _, f.1, e.1⟩ : Numeral), e.2)) = _
  rw [hrest.not_part.2.1]
  show ((exponentPart rest).bind fun e => .ok ((⟨negative, _, [], e.1⟩ : Numeral), e.2)) = _
  rw [hrest.not_part.2.2]
  rfl

theorem gatherDigits_naturalText {n : Nat} (h : n ≤ maxUnsigned) :
    gatherDigits 0 ((naturalText n).map digitValue) = (n, []) := by
  have hn : Nat.ofDigitChars 10 (naturalText n) 0 = n := Nat.ofDigitChars_ten_toDigits
  rw [gatherDigits_map (hn.symm ▸ h), hn]

theorem value_of_unsigned {n : Nat} (h : n ≤ maxUnsigned) :
    Numeral.value ⟨false, (naturalText n).map digitValue, [], none⟩ = .ok (.integer n) := by
  simp [Numeral.value, gatherDigits_naturalText h]

theorem value_of_negative {n : Nat} (hpos : 0 < n) (h : n ≤ Nat.pow 2 63) :
    Numeral.value ⟨true, (naturalText n).map digitValue, [], none⟩ = .ok (.integer (-n)) := by
  have hfits : n ≤ maxUnsigned := h.trans (by decide)
  simp only [Numeral.value, gatherDigits_naturalText hfits]
  simp [hpos, h]

/-- The node of a number, after its numeral was gathered. -/
private def numberNode (pieces : Rest) : Except Break (Numeral × Rest) → Node × Option Rest
  | .ok (n, stop) => (.number pieces stop (numberOf n stop), some stop)
  | .error b => (.broken pieces b, none)

private theorem node_minus {inner stop : Rest} {n : Numeral} (h : numeral true inner = .ok (n, stop)) :
    node (fuel + 1) (.char '-' :: inner)
      = (.number (.char '-' :: inner) stop (numberOf n stop), some stop) := by
  have hnode : node (fuel + 1) (.char '-' :: inner) = numberNode (.char '-' :: inner) (numeral true inner) := rfl
  rw [hnode, h]
  rfl

private theorem node_digit {pieces stop : Rest} {n : Numeral}
    (hdigit : ∃ c : Char, c.isDigit = true ∧ ∃ tail, pieces = .char c :: tail)
    (h : numeral false pieces = .ok (n, stop)) :
    node (fuel + 1) pieces = (.number pieces stop (numberOf n stop), some stop) := by
  obtain ⟨c, hc, tail, rfl⟩ := hdigit
  have hnode : node (fuel + 1) (.char c :: tail)
      = numberNode (.char c :: tail) (numeral false (.char c :: tail)) := by
    clear h
    have hrange : 48 ≤ c.toNat ∧ c.toNat ≤ 57 := by
      simpa [Char.isDigit, UInt32.le_iff_toNat_le] using hc
    -- one digit after another, since the reader tells the characters apart one by one
    generalize hcode : c.toNat = code at hrange
    obtain rfl : c = Char.ofNat code := by rw [← hcode, Char.ofNat_toNat]
    obtain ⟨hlow, hhigh⟩ := hrange
    clear hcode hc
    interval_cases code <;> rfl
  rw [hnode, h]
  rfl

/-- An integer of 64 bits, with or without sign. -/
def FitsWord (k : Int) : Prop := isSigned k = true ∨ isUnsigned k = true

theorem FitsWord.of_nat {n : Nat} (h : FitsWord (.ofNat n)) : n ≤ maxUnsigned := by
  have h63 : Nat.pow 2 63 = 9223372036854775808 := rfl
  have hmax : maxUnsigned = 18446744073709551615 := rfl
  simp only [FitsWord, isSigned, isUnsigned, Bool.and_eq_true, decide_eq_true_eq,
    Int.ofNat_eq_natCast] at h
  omega

theorem FitsWord.of_negative {n : Nat} (h : FitsWord (.negSucc n)) : n + 1 ≤ Nat.pow 2 63 := by
  have h63 : Nat.pow 2 63 = 9223372036854775808 := rfl
  simp only [FitsWord, isSigned, isUnsigned, Bool.and_eq_true, decide_eq_true_eq] at h
  omega

/-- An integer is read back from its text. -/
theorem node_integerText {k : Int} (hk : FitsWord k) (hrest : IsDelimited rest) :
    node (fuel + 1) ((integerText k).map .char ++ rest)
      = (.number ((integerText k).map .char ++ rest) rest (.ok (.integer k)), some rest) := by
  cases k with
  | ofNat n =>
    have hdigit : ∃ c : Char, c.isDigit = true ∧
        ∃ tail, (naturalText n).map Piece.char ++ rest = .char c :: tail := by
      obtain ⟨c, cs, hcs⟩ := List.exists_cons_of_ne_nil (l := naturalText n) Nat.toDigits_ne_nil
      refine ⟨c, isDigit_of_mem_naturalText (hcs ▸ List.mem_cons_self), cs.map .char ++ rest, ?_⟩
      rw [hcs]
      rfl
    rw [integerText, node_digit hdigit (numeral_naturalText hrest), numberOf,
      value_of_unsigned hk.of_nat]
    rfl
  | negSucc n =>
    rw [integerText, List.map_cons, List.cons_append, node_minus (numeral_naturalText hrest), numberOf,
      value_of_negative (Nat.succ_pos n) hk.of_negative]
    rfl

end Provenance.Json
