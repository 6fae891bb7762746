import Provenance.Proofs.Bytecode.Collection

/-!
# Marks left by linking

Linking any text, well-formed or not, keeps its length and brings no mark in. But a placeholder is
replaced wherever its text stands, also across the border of another one, which is then no longer
found. So a mark is gone exactly if some replacement is made over it, and a mark can only be left where
another one stands nearer than the width of a placeholder (`marks_of_link`).
-/

namespace Provenance.Bytecode

open Text

variable {template actual linked code placeholder : List Char} {k : Nat}
  {d : Addresses}

/-! ## One replacement -/

section
variable {needle replacement cs : List Char}

/-- A replacement by digits changes nothing about whether a text comes next, if this begins with no digit and
does not stand where the needle does. -/
private theorem cons_prefix_replaceAll_iff {c : Char} {part : List Char} (hn : needle ≠ [])
    (hdigits : replacement.all Hex.isDigit = true) (hpos : replacement ≠ [])
    (hc : Hex.isDigit c = false) (hnot : ∀ more, ¬ c :: part <+: needle ++ more)
    (hpart : ∀ cs, part <+: replaceAll needle replacement cs ↔ part <+: cs) (cs : List Char) :
    c :: part <+: replaceAll needle replacement cs ↔ c :: part <+: cs := by
  cases cs with
  | nil => rfl
  | cons c' cs =>
    by_cases hp : needle <+: c' :: cs
    · obtain ⟨more, hmore⟩ := hp
      obtain ⟨d, ds, rfl⟩ := List.exists_cons_of_ne_nil hpos
      have hd : Hex.isDigit d = true := (Bool.and_eq_true_iff.1 hdigits).1
      have hne : c ≠ d := by
        rintro rfl
        exact Bool.false_ne_true (hc.symm.trans hd)
      rw [← hmore, replaceAll_needle_append hn, List.cons_append, List.cons_prefix_cons]
      exact ⟨fun h => absurd h.1 hne, fun h => absurd h (hnot more)⟩
    · rw [replaceAll_cons hp, List.cons_prefix_cons, List.cons_prefix_cons, hpart]

/-- Nor does it change whether the rest of a mark comes next. -/
private theorem tail_prefix_replaceAll_iff (hmark : mark <+: needle)
    (hdigits : replacement.all Hex.isDigit = true) (hpos : replacement ≠ []) :
    ['_', '$'] <+: replaceAll needle replacement cs ↔ ['_', '$'] <+: cs := by
  obtain ⟨rest, rfl⟩ := hmark
  have hn : mark ++ rest ≠ [] := by simp [mark]
  have hdollar : ∀ cs, ['$'] <+: replaceAll (mark ++ rest) replacement cs ↔ ['$'] <+: cs :=
    cons_prefix_replaceAll_iff hn hdigits hpos (by decide) (by simp [mark, List.cons_prefix_cons])
      (by simp)
  exact cons_prefix_replaceAll_iff hn hdigits hpos (by decide) (by simp [mark, List.cons_prefix_cons])
    hdollar cs

/-- After a replacement by digits the marks are those that begin in none of the replaced places. -/
theorem markAt_replaceAll_iff (hmark : mark <+: needle)
    (hdigits : replacement.all Hex.isDigit = true)
    (hlen : byteLength replacement = byteLength needle) :
    MarkAt k (replaceAll needle replacement cs) ↔
      MarkAt k cs ∧ ∀ p ∈ occurrences needle cs, ¬ (p ≤ k ∧ k < p + byteLength needle) := by
  have hn : needle ≠ [] := by
    rintro rfl
    exact absurd hmark (by decide)
  have hpos : replacement ≠ [] := by
    rintro rfl
    exact hn (byteLength_eq_zero.1 hlen.symm)
  unfold MarkAt
  induction cs using needle_induction hn generalizing k with
  | nil =>
    have hnone : ∀ p ∈ occurrences needle [], ¬ (p ≤ k ∧ k < p + byteLength needle) :=
      fun p hp => absurd hp List.not_mem_nil
    exact ⟨fun h => ⟨h, hnone⟩, fun h => h.1⟩
  | found rest ih =>
    rw [replaceAll_needle_append hn, occurrences_needle_append hn]
    by_cases hk : k < byteLength needle
    · constructor
      · intro h
        exact absurd h ((clean_digits hdigits).not_standsAt (by omega))
      · rintro ⟨-, h⟩
        exact absurd ⟨Nat.zero_le k, by omega⟩ (h 0 List.mem_cons_self)
    · obtain ⟨j, rfl⟩ : ∃ j, k = byteLength needle + j := ⟨k - byteLength needle, by omega⟩
      have hleft := @standsAt_append_iff mark replacement (replaceAll needle replacement rest) j
      rw [hlen] at hleft
      refine hleft.trans (ih.trans ?_)
      rw [standsAt_append_iff]
      refine and_congr_right fun _ => ?_
      simp only [List.forall_mem_cons, List.forall_mem_map]
      constructor
      · intro h
        refine ⟨by omega, fun p hp => ?_⟩
        have := h p hp
        omega
      · rintro ⟨-, h⟩ p hp
        have := h p hp
        omega
  | cons c cs hp ih =>
    rw [replaceAll_cons hp, occurrences_cons hp, standsAt_cons_iff, standsAt_cons_iff]
    have hhead : mark <+: c :: replaceAll needle replacement cs ↔ mark <+: c :: cs := by
      rw [mark, List.cons_prefix_cons, List.cons_prefix_cons,
        tail_prefix_replaceAll_iff hmark hdigits hpos]
    have hsize := c.utf8Size_pos
    simp only [List.forall_mem_map, hhead]
    constructor
    · rintro (⟨rfl, h⟩ | ⟨j, rfl, hj⟩)
      · exact ⟨.inl ⟨rfl, h⟩, fun p _ => by omega⟩
      · obtain ⟨hmarkAt, hfree⟩ := ih.1 hj
        refine ⟨.inr ⟨j, rfl, hmarkAt⟩, fun p hp => ?_⟩
        have := hfree p hp
        omega
    · rintro ⟨⟨rfl, h⟩ | ⟨j, rfl, hj⟩, hfree⟩
      · exact .inl ⟨rfl, h⟩
      · refine .inr ⟨j, rfl, ih.2 ⟨hj, fun p hp => ?_⟩⟩
        have := hfree p hp
        omega

end

/-! ## All replacements -/

/-- The places at which addresses are put in, one placeholder after the other. -/
def replacedAt : Addresses → List Char → List Nat
  | [], _ => []
  | (placeholder, address) :: d, code =>
    occurrences placeholder code ++ replacedAt d (replaceAll placeholder address code)

variable {entry : List Char × List Char}

theorem Addresses.Marked.tail (h : Addresses.Marked (entry :: d)) : d.Marked :=
  fun other hother => h other (List.mem_cons_of_mem _ hother)

theorem Addresses.Marked.head_width (h : Addresses.Marked (entry :: d)) :
    byteLength entry.2 = byteLength entry.1 := by
  obtain ⟨hmarked, a, ha⟩ := h entry List.mem_cons_self
  rw [hmarked.width, ha, a.byteLength_text]

/-- After the first entry's replacement the marks are those that begin in none of its places. -/
theorem Addresses.Marked.head_marks (h : Addresses.Marked (entry :: d)) :
    MarkAt k (replaceAll entry.1 entry.2 code) ↔
      MarkAt k code ∧ ∀ p ∈ occurrences entry.1 code, ¬ (p ≤ k ∧ k < p + placeholderWidth) := by
  obtain ⟨hmarked, a, ha⟩ := h entry List.mem_cons_self
  rw [← hmarked.width]
  exact markAt_replaceAll_iff hmarked.mark_prefix (ha ▸ a.text_digits) h.head_width

theorem byteLength_substitute (hd : d.Marked) :
    byteLength (substitute d code) = byteLength code := by
  induction d generalizing code with
  | nil => rfl
  | cons entry d ih =>
    have hfirst : byteLength (replaceAll entry.1 entry.2 code) = byteLength code :=
      byteLength_replaceAll (hd entry List.mem_cons_self).1.ne_nil hd.head_width
    exact (ih hd.tail).trans hfirst

/-- The marks that are left are those that begin in none of the replaced places. -/
theorem markAt_substitute_iff (hd : d.Marked) :
    MarkAt k (substitute d code) ↔
      MarkAt k code ∧ ∀ p ∈ replacedAt d code, ¬ (p ≤ k ∧ k < p + placeholderWidth) := by
  induction d generalizing code with
  | nil => simp [substitute, replacedAt]
  | cons entry d ih =>
    have hrest : substitute (entry :: d) code = substitute d (replaceAll entry.1 entry.2 code) := rfl
    rw [hrest, ih hd.tail, hd.head_marks, replacedAt, and_assoc]
    simp only [List.mem_append, or_imp, forall_and]

/-- A placeholder whose mark stands apart from all others is replaced. -/
theorem not_markAt_substitute (hd : d.Marked) (hentry : ∃ entry ∈ d, entry.1 = placeholder)
    (hstands : StandsAt placeholder k code)
    (hapart : ∀ j, MarkAt j code → j = k ∨ j + placeholderWidth ≤ k ∨ k + placeholderWidth ≤ j) :
    ¬ MarkAt k (substitute d code) := by
  induction d generalizing code with
  | nil => simp at hentry
  | cons entry d ih =>
    have hmarked := (hd entry List.mem_cons_self).1
    have hwidth := hmarked.width
    have hrest : substitute (entry :: d) code = substitute d (replaceAll entry.1 entry.2 code) := rfl
    rw [hrest]
    by_cases hsame : entry.1 = placeholder
    · -- its turn: it is met, since nothing overlaps it
      subst hsame
      have hmet : k ∈ occurrences entry.1 code := by
        refine mem_occurrences_of_standsAt hmarked.ne_nil hstands fun j hj => ?_
        have := hapart j (hmarked.markAt hj)
        omega
      rw [markAt_substitute_iff hd.tail, hd.head_marks]
      rintro ⟨⟨-, hfree⟩, -⟩
      exact hfree k hmet ⟨Nat.le_refl k, Nat.lt_add_of_pos_right (by decide)⟩
    · -- not yet: what is replaced does not touch it
      have hwidth' : byteLength placeholder = placeholderWidth := by
        obtain ⟨other, hother, rfl⟩ := hentry
        exact (hd other hother).1.width
      refine ih hd.tail ?_ ?_ ?_
      · obtain ⟨other, hother, hkey⟩ := hentry
        rcases List.mem_cons.1 hother with rfl | hother
        · exact absurd hkey hsame
        · exact ⟨other, hother, hkey⟩
      · refine hstands.replaceAll hmarked.ne_nil hd.head_width fun p hp => ?_
        have hmet := standsAt_of_mem_occurrences hmarked.ne_nil hp
        rcases hapart p (hmarked.markAt hmet) with rfl | hbefore | hbehind
        · exact absurd (hmet.eq_of_byteLength hstands (hwidth.trans hwidth'.symm)) hsame
        · omega
        · omega
      · intro j hj
        exact hapart j (hd.head_marks.1 hj).1

/-! ## Linking -/

/-- A linked code is as long as its template. It has no mark exactly if each mark of the template
begins in a place in which an address is put, and where a mark is left another one is nearer than the
width of a placeholder. -/
theorem marks_of_link (h : link template actual = .ok linked) :
    byteLength linked = byteLength template ∧
    (∃ addresses, collect template actual = .ok addresses ∧
      ((∀ k, ¬ MarkAt k linked) ↔ ∀ k, MarkAt k template →
        ∃ p ∈ replacedAt addresses template, p ≤ k ∧ k < p + placeholderWidth)) ∧
    ∀ k, MarkAt k linked → MarkAt k template ∧
      ∃ j, MarkAt j template ∧ j ≠ k ∧ j < k + placeholderWidth ∧ k < j + placeholderWidth := by
  cases hcollect : collect template actual with
  | error e =>
    rw [link, hcollect] at h
    cases h
  | ok addresses =>
    rw [link, hcollect] at h
    obtain rfl : substitute addresses template = linked := Except.ok.inj h
    obtain ⟨hmarked, hwindow⟩ := marked_of_collect hcollect
    refine ⟨byteLength_substitute hmarked, ⟨addresses, rfl, ?_⟩, ?_⟩
    · refine forall_congr' fun k => ?_
      rw [markAt_substitute_iff hmarked, not_and]
      simp only [not_forall, not_not, exists_prop]
    · intro k hk
      have hbefore := ((markAt_substitute_iff hmarked).1 hk).1
      refine ⟨hbefore, ?_⟩
      by_contra halone
      have hapart : ∀ j, MarkAt j template →
          j = k ∨ j + placeholderWidth ≤ k ∨ k + placeholderWidth ≤ j := by
        intro j hj
        by_contra hnear
        exact halone ⟨j, hj, by omega⟩
      -- the window over the mark begins at a mark, so at this one
      obtain ⟨entry, he, offset, hstands, hle, hlt⟩ := hwindow k hbefore
      obtain rfl : offset = k := by
        have := hapart offset ((hmarked entry he).1.markAt hstands)
        omega
      exact not_markAt_substitute hmarked ⟨entry, he, rfl⟩ hstands hapart hk

/-- A placeholder of one mark and zeros. -/
def plainPlaceholder : List Char := mark ++ List.replicate 37 '0'

/-- A placeholder of two marks, of which the second could begin a `plainPlaceholder` that ends behind
it. -/
def crowdedPlaceholder : List Char := mark ++ '1' :: mark ++ List.replicate 33 '0'

/-- By itself a placeholder of two marks is replaced as a whole. -/
theorem marks_of_link_crowded :
    link crowdedPlaceholder (List.replicate 40 'b') = .ok (List.replicate 40 'b') ∧
      ∀ k, ¬ MarkAt k (List.replicate 40 'b') := by
  have hlink : link crowdedPlaceholder (List.replicate 40 'b') = .ok (List.replicate 40 'b') := by
    decide +kernel
  obtain ⟨-, ⟨addresses, hcollect, hmarks⟩, -⟩ := marks_of_link hlink
  have hcollect' : collect crowdedPlaceholder (List.replicate 40 'b')
      = .ok [(crowdedPlaceholder, List.replicate 40 'b')] := by
    decide +kernel
  rw [hcollect', Except.ok.injEq] at hcollect
  subst hcollect
  refine ⟨hlink, hmarks.2 fun k hk => ⟨0, by decide +kernel, Nat.zero_le k, ?_⟩⟩
  -- a mark begins before the end of the text
  obtain ⟨before, after, htext, hb⟩ := hk
  have hlen := congrArg byteLength htext
  have hwidth : byteLength crowdedPlaceholder = placeholderWidth := by decide +kernel
  have hthree : byteLength mark = 3 := by decide
  rw [byteLength_append, byteLength_append, hwidth, hthree] at hlen
  omega

/-- When the plain placeholder is replaced where the two meet, the mark before it is left. -/
theorem mark_left_by_link :
    link (plainPlaceholder ++ (crowdedPlaceholder ++ List.replicate 4 '0'))
        (List.replicate 40 'a' ++ (List.replicate 40 'b' ++ List.replicate 4 '0'))
      = .ok (List.replicate 40 'a' ++ (mark ++ '1' :: List.replicate 40 'a')) ∧
    MarkAt 40 (List.replicate 40 'a' ++ (mark ++ '1' :: List.replicate 40 'a')) :=
  ⟨by decide +kernel, _, _, rfl, by decide +kernel⟩

end Provenance.Bytecode
