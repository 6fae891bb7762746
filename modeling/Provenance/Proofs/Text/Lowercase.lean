import Provenance.Text.Lowercase

/-!
# Small letters and ASCII

An ASCII character has one small form, which is the usual one. What any other character becomes stands behind
the small letter `f` (`behind_of_mem_smallForm`): the tables map some of them to ASCII letters, as the Kelvin
sign to `k`, but none to one of the first six.
-/

namespace Provenance.Text

theorem toNat_ofNat {n : Nat} (h : n.isValidChar) : (Char.ofNat n).toNat = n := by
  rw [Char.ofNat, dif_pos h]
  rfl

theorem toNat_toLower (c : Char) :
    c.toLower.toNat = if 65 ≤ c.toNat ∧ c.toNat ≤ 90 then c.toNat + 32 else c.toNat := by
  have hupper : c.val ≥ 'A'.val ∧ c.val ≤ 'Z'.val ↔ 65 ≤ c.toNat ∧ c.toNat ≤ 90 := by
    simp only [ge_iff_le, UInt32.le_iff_toNat_le]
    exact Iff.rfl
  by_cases h : 65 ≤ c.toNat ∧ c.toNat ≤ 90
  · have hlower : c.toLower = ⟨c.val + 32, _⟩ := dif_pos (hupper.2 h)
    rw [if_pos h, hlower]
    show (c.val + 32).toNat = c.val.toNat + 32
    have hc : c.val.toNat ≤ 90 := h.2
    rw [UInt32.toNat_add, Nat.mod_eq_of_lt]
    · rfl
    · show c.val.toNat + 32 < 2 ^ 32
      omega
  · have hsame : c.toLower = c := dif_neg fun hv => h (hupper.1 hv)
    rw [if_neg h, hsame]

theorem asciiLowercase_asciiLowercase (cs : List Char) :
    asciiLowercase (asciiLowercase cs) = asciiLowercase cs := by
  have htwice : ∀ c : Char, c.toLower.toLower = c.toLower := by
    intro c
    apply Char.toNat_inj.1
    have h := toNat_toLower c
    rw [toNat_toLower c.toLower]
    split <;> split at h <;> omega
  simp [asciiLowercase, htwice]

/-- Every capital outside ASCII has its small letter behind `f`, and it is a character. -/
theorem behind_of_mem_capitals : ∀ run ∈ capitals, 0x80 ≤ run.last →
    102 < run.first + run.offset ∧
      (run.last + run.offset < 0xD800 ∨
        (0xDFFF < run.first + run.offset ∧ run.last + run.offset < 0x110000)) := by
  decide +kernel

/-- What a character outside ASCII becomes stands behind `f`. -/
theorem behind_of_mem_smallForm {c d : Char} (hc : 0x80 ≤ c.toNat) (hd : d ∈ smallForm c) :
    102 < d.toNat := by
  rw [smallForm, if_neg (by omega)] at hd
  split at hd
  · -- the capital with a dot becomes `i` and a dot
    have hpair : ∀ d ∈ [Char.ofNat 0x69, Char.ofNat 0x307], 102 < d.toNat := by simp
    exact hpair d hd
  · split at hd
    · next run hfound =>
      obtain rfl := List.mem_singleton.1 hd
      have hrun := List.find?_some hfound
      simp only [Bool.and_eq_true, decide_eq_true_eq] at hrun
      obtain ⟨⟨hfirst, hlast⟩, -⟩ := hrun
      obtain ⟨hbehind, hvalid⟩ :=
        behind_of_mem_capitals run (List.mem_of_find?_eq_some hfound) (by omega)
      have hchar : ((c.toNat : Int) + run.offset).toNat.isValidChar := by
        unfold Nat.isValidChar
        omega
      rw [toNat_ofNat hchar]
      omega
    · obtain rfl := List.mem_singleton.1 hd
      omega

theorem smallForm_ne_nil (c : Char) : smallForm c ≠ [] := by
  unfold smallForm
  split
  · simp
  · split
    · simp
    · split <;> simp

/-- A character at the start of a text becomes its small form, or one of the two small sigmas. -/
theorem exists_lowercaseAfter_cons (before : List Char) (c : Char) (cs : List Char) :
    ∃ small, lowercaseAfter before (c :: cs) = small ++ lowercaseAfter (c :: before) cs ∧
      (c.toNat < 0x80 → small = [c.toLower]) ∧
      (0x80 ≤ c.toNat → small ≠ [] ∧ ∀ d ∈ small, 102 < d.toNat) := by
  refine ⟨_, rfl, ?_, ?_⟩
  · intro hc
    have hne : c ≠ 'Σ' := by
      rintro rfl
      exact absurd hc (by decide)
    rw [if_neg hne, smallForm, if_pos hc]
  · intro hc
    split
    · split <;> exact ⟨by simp, by simp⟩
    · exact ⟨smallForm_ne_nil c, fun d => behind_of_mem_smallForm hc⟩

end Provenance.Text
