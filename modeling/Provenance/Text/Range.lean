/-!
# Ranges of code points

Character classes are sorted lists of closed ranges. `inRanges_iff` says that the early exit of the
search loses nothing when the ranges are sorted.
-/

namespace Provenance.Text

/-- Whether `code` lies in one of the ranges, which stand in increasing order. -/
def inRanges (code : Nat) : List (Nat × Nat) → Bool
  | [] => false
  | (first, last) :: rest =>
    if code < first then false else if code ≤ last then true else inRanges code rest

/-- On sorted ranges the search finds exactly the codes that some range holds. -/
theorem inRanges_iff {code : Nat} {ranges : List (Nat × Nat)}
    (sorted : ranges.Pairwise fun a b => a.1 ≤ b.1) :
    inRanges code ranges = true ↔ ∃ r ∈ ranges, r.1 ≤ code ∧ code ≤ r.2 := by
  induction ranges with
  | nil => simp [inRanges]
  | cons r rest ih =>
    obtain ⟨first, last⟩ := r
    obtain ⟨head, tail⟩ := List.pairwise_cons.1 sorted
    have later : ∀ s ∈ rest, first ≤ s.1 := head
    by_cases h : code < first
    · have : ∀ s ∈ rest, ¬(s.1 ≤ code ∧ code ≤ s.2) := fun s hs hc => by
        have := later s hs
        omega
      simp [inRanges, h, Nat.not_le.2 h]
      intro a b hab ha
      exact Nat.not_le.1 fun hb => this (a, b) hab ⟨ha, hb⟩
    · by_cases hl : code ≤ last
      · simp [inRanges, h, hl, Nat.not_lt.1 h]
      · simp [inRanges, h, hl, ih tail]

end Provenance.Text
