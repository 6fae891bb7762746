import Provenance.Proofs.Hex
import Provenance.Proofs.Text.Lowercase

/-!
# Addresses

A text is an address if it is 40 digits or the mark and 40 digits, and nothing else is (`Address.isValid_iff`).
What it is marked as has the same digits, in small letters if the mark had to be added.

The text is put in small letters before its digits are looked at, and letters of other alphabets have small
forms in ASCII. None of these forms is a digit (`Hex.all_isDigit_lowercaseAfter`), so that only digits become
digits.
-/

namespace Provenance

namespace Text

/-- A character that is not blank stays at the start of a trimmed text. -/
theorem exists_trim_cons {c : Char} (h : isBlank c = false) (cs : List Char) :
    ∃ rest, trim (c :: cs) = c :: rest := by
  have hstart : (c :: cs).dropWhile isBlank = c :: cs := by rw [List.dropWhile_cons_of_neg (by simp [h])]
  have hend : [c].dropWhile isBlank = [c] := by rw [List.dropWhile_cons_of_neg (by simp [h])]
  show ∃ rest, trimEndWhile isBlank ((c :: cs).dropWhile isBlank) = c :: rest
  rw [hstart, trimEndWhile, List.reverse_cons, List.dropWhile_append]
  split
  · exact ⟨[], by rw [hend]; rfl⟩
  · exact ⟨_, List.reverse_concat⟩

end Text

namespace Hex

open Text

/-! ## Digits in small letters -/

/-- Small letters do not make a digit, nor unmake one. -/
theorem isDigit_toLower (c : Char) : isDigit c.toLower = isDigit c := by
  rw [Bool.eq_iff_iff, isDigit_iff, isDigit_iff, toNat_toLower]
  split <;> omega

theorem toNat_le_of_isDigit {c : Char} (h : isDigit c = true) : c.toNat ≤ 102 := by
  have := isDigit_iff.1 h
  omega

theorem not_isBlank_of_isDigit {c : Char} (h : isDigit c = true) : isBlank c = false := by
  have := isDigit_iff.1 h
  simp only [isBlank, Bool.or_eq_false_iff, Bool.and_eq_false_iff, decide_eq_false_iff_not]
  omega

/-- The small letters of a text are digits exactly if its characters are. -/
theorem all_isDigit_lowercaseAfter (before cs : List Char) :
    (lowercaseAfter before cs).all isDigit = cs.all isDigit := by
  induction cs generalizing before with
  | nil => rfl
  | cons c cs ih =>
    obtain ⟨small, hsmall, hascii, hother⟩ := exists_lowercaseAfter_cons before c cs
    have hform : small.all isDigit = isDigit c := by
      by_cases hc : c.toNat < 0x80
      · rw [hascii hc, List.all_cons, List.all_nil, Bool.and_true, isDigit_toLower]
      · -- outside ASCII: neither the character nor what it becomes
        obtain ⟨hne, hbehind⟩ := hother (by omega)
        have hno : isDigit c = false := by
          refine Bool.eq_false_iff.2 fun h => ?_
          have := toNat_le_of_isDigit h
          omega
        obtain ⟨d, hd⟩ := List.exists_mem_of_ne_nil small hne
        rw [hno, List.all_eq_false]
        refine ⟨d, hd, fun h => ?_⟩
        have := toNat_le_of_isDigit h
        have := hbehind d hd
        omega
    rw [hsmall, List.all_append, hform, ih, List.all_cons]

/-- In digits only the 26 Latin capitals are put in small letters. -/
theorem lowercaseAfter_of_digits (before : List Char) {cs : List Char} (h : cs.all isDigit = true) :
    lowercaseAfter before cs = asciiLowercase cs := by
  induction cs generalizing before with
  | nil => rfl
  | cons c cs ih =>
    obtain ⟨hc, hcs⟩ := Bool.and_eq_true_iff.1 h
    obtain ⟨small, hsmall, hascii, -⟩ := exists_lowercaseAfter_cons before c cs
    have hc' : c.toNat < 0x80 := by
      have := toNat_le_of_isDigit hc
      omega
    rw [hsmall, hascii hc', ih _ hcs]
    rfl

/-! ## The mark -/

/-- The mark stays as it is in small letters. -/
theorem lowercase_mark_append (cs : List Char) :
    lowercase (mark ++ cs) = mark ++ lowercaseAfter ['x', '0'] cs := by
  rfl

/-- What a text is marked as if it starts with no blank and is not the word `null`. -/
theorem marked_cons {c : Char} (hblank : isBlank c = false) (hnull : c ≠ 'n') (cs : List Char) :
    marked (c :: cs)
      = if mark.isPrefixOf (c :: cs) then c :: cs else mark ++ lowercaseAfter ['x', '0'] (c :: cs) := by
  obtain ⟨rest, hrest⟩ := exists_trim_cons hblank cs
  have hcore : ((trim (c :: cs)).isEmpty || trim (c :: cs) = ['n', 'u', 'l', 'l']) = false := by
    simp [hrest, hnull]
  unfold marked
  simp only [hcore, lowercase_mark_append]
  rfl

/-- A text with its mark is left alone. -/
theorem marked_mark_append (cs : List Char) : marked (mark ++ cs) = mark ++ cs := by
  show marked ('0' :: 'x' :: cs) = '0' :: 'x' :: cs
  rw [marked_cons (by decide) (by decide), if_pos (by simp [mark])]

/-- Digits get the mark and small letters. -/
theorem marked_of_digits {cs : List Char} (hne : cs ≠ []) (h : cs.all isDigit = true) :
    marked cs = mark ++ asciiLowercase cs := by
  cases cs with
  | nil => exact absurd rfl hne
  | cons c cs =>
    obtain ⟨hc, hcs⟩ := Bool.and_eq_true_iff.1 h
    have hnull : c ≠ 'n' := by
      rintro rfl
      exact absurd hc (by decide)
    have hmark : mark.isPrefixOf (c :: cs) = false := by
      refine Bool.eq_false_iff.2 fun hprefix => ?_
      obtain ⟨rest, hrest⟩ := List.isPrefixOf_iff_prefix.1 hprefix
      -- the letter of the mark is no digit
      have hx : isDigit 'x' = true := by
        refine List.all_eq_true.1 h 'x' ?_
        rw [← hrest]
        simp [mark]
      exact absurd hx (by decide)
    rw [marked_cons (not_isBlank_of_isDigit hc) hnull, hmark, if_neg (by simp),
      lowercaseAfter_of_digits _ h]

/-- A text is marked as nothing, as itself since it has the mark, or as the mark and its small letters. -/
theorem marked_cases (cs : List Char) :
    marked cs = [] ∨ (∃ rest, cs = mark ++ rest ∧ marked cs = cs) ∨
      marked cs = mark ++ lowercaseAfter ['x', '0'] cs := by
  simp only [marked, lowercase_mark_append]
  split
  · exact .inl rfl
  · split
    · next hprefix =>
      obtain ⟨rest, hrest⟩ := List.isPrefixOf_iff_prefix.1 hprefix
      exact .inr (.inl ⟨rest, hrest.symm, rfl⟩)
    · exact .inr (.inr rfl)

/-- What is marked is not marked again. -/
theorem marked_marked (cs : List Char) : marked (marked cs) = marked cs := by
  rcases marked_cases cs with h | ⟨rest, hrest, h⟩ | h
  · rw [h]
    rfl
  · rw [h, h]
  · rw [h, marked_mark_append]

end Hex

namespace Address

open Text

/-- The digits of an address of 20 bytes. -/
def AreDigits (ds : List Char) : Prop := ds.length = width ∧ ds.all Hex.isDigit = true

/-- How the address with some digits is spelled: with the mark or without. -/
def Spells (cs digits : List Char) : Prop := cs = digits ∨ cs = Hex.mark ++ digits

theorem isMarked_iff {cs : List Char} :
    isMarked cs = true ↔ ∃ digits, AreDigits digits ∧ cs = Hex.mark ++ digits := by
  constructor
  · intro h
    unfold isMarked at h
    split at h
    · next digits => exact ⟨digits, by simpa [AreDigits] using h, rfl⟩
    · cases h
  · rintro ⟨digits, hdigits, rfl⟩
    show (digits.length = width && digits.all Hex.isDigit) = true
    simpa [AreDigits] using hdigits

theorem AreDigits.ne_nil {ds : List Char} (h : AreDigits ds) : ds ≠ [] := by
  rintro rfl
  exact absurd h.1 (by decide)

theorem AreDigits.asciiLowercase {ds : List Char} (h : AreDigits ds) : AreDigits (asciiLowercase ds) := by
  refine ⟨by rw [Text.asciiLowercase, List.length_map, h.1], ?_⟩
  rw [← Hex.lowercaseAfter_of_digits [] h.2, Hex.all_isDigit_lowercaseAfter, h.2]

/-- Every spelling of an address is marked as its digits, up to letter case. -/
theorem Spells.marked {cs digits : List Char} (hdigits : AreDigits digits) (h : Spells cs digits) :
    ∃ same, AreDigits same ∧ Hex.marked cs = Hex.mark ++ same ∧
      Text.asciiLowercase same = Text.asciiLowercase digits := by
  rcases h with rfl | rfl
  · exact ⟨_, hdigits.asciiLowercase, Hex.marked_of_digits hdigits.ne_nil hdigits.2,
      asciiLowercase_asciiLowercase _⟩
  · exact ⟨digits, hdigits, Hex.marked_mark_append digits, rfl⟩

/-- The texts that are valid are the spellings of addresses. -/
theorem isValid_iff {cs : List Char} :
    isValid cs = true ↔ ∃ digits, AreDigits digits ∧ Spells cs digits := by
  constructor
  · intro h
    obtain ⟨digits, hdigits, hmarked⟩ := isMarked_iff.1 h
    rcases Hex.marked_cases cs with hnone | ⟨rest, hrest, hself⟩ | hsmall
    · rw [hnone] at hmarked
      cases hmarked
    · exact ⟨digits, hdigits, .inr (hself.symm.trans hmarked)⟩
    · -- the small letters are digits, so the text has been digits before
      obtain rfl : lowercaseAfter ['x', '0'] cs = digits :=
        List.append_cancel_left (hsmall.symm.trans hmarked)
      have hall : cs.all Hex.isDigit = true := (Hex.all_isDigit_lowercaseAfter _ _).symm.trans hdigits.2
      have hlength : cs.length = width := by
        rw [← hdigits.1, Hex.lowercaseAfter_of_digits _ hall, Text.asciiLowercase, List.length_map]
      exact ⟨cs, ⟨hlength, hall⟩, .inl rfl⟩
  · rintro ⟨digits, hdigits, hspells⟩
    obtain ⟨same, hsame, hmarked, -⟩ := hspells.marked hdigits
    exact isMarked_iff.2 ⟨same, hsame, hmarked⟩

-- the small form of the Kelvin sign is an ASCII letter, but no digit
example : lowercase [Char.ofNat 0x212A] = ['k'] ∧
    isValid (Char.ofNat 0x212A :: List.replicate 39 '0') = false := by
  decide +kernel

end Address

end Provenance
