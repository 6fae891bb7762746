import Provenance.Text.Offset

/-!
# Cutting and replacing

What the byte cuts of a text give, and how replacement goes through a text from left to right. A
part in which the needle does not begin is left as it is (`replaceAll_append_of_clean`), and where
the needle stands its replacement takes its place (`replaceAll_needle_append`).
-/

namespace Provenance.Text

/-! ## Cuts -/

theorem drop?_eq_some_iff {n : Nat} {cs rest : List Char} :
    drop? n cs = some rest ↔ ∃ before, cs = before ++ rest ∧ byteLength before = n := by
  simp [drop?, splitAt?_eq_some_iff]

theorem take?_eq_some_iff {n : Nat} {cs part : List Char} :
    take? n cs = some part ↔ ∃ rest, cs = part ++ rest ∧ byteLength part = n := by
  simp [take?, splitAt?_eq_some_iff]

/-- A slice is the part of the text that has the asked number of bytes before it and in it. -/
theorem slice?_eq_some_iff {start width : Nat} {cs part : List Char} :
    slice? start (start + width) cs = some part ↔
      ∃ before after, cs = before ++ (part ++ after) ∧ byteLength before = start ∧
        byteLength part = width := by
  rw [slice?, if_pos (Nat.le_add_right _ _), Nat.add_sub_cancel_left]
  simp only [Option.bind_eq_some_iff, drop?_eq_some_iff, take?_eq_some_iff]
  constructor
  · rintro ⟨_, ⟨before, hcs, hb⟩, after, rfl, hp⟩
    exact ⟨before, after, hcs, hb, hp⟩
  · rintro ⟨before, after, hcs, hb, hp⟩
    exact ⟨part ++ after, ⟨before, hcs, hb⟩, after, rfl, hp⟩

/-- Behind a text the same is cut as without it. -/
theorem splitAt?_append (a b : List Char) (n : Nat) :
    splitAt? (byteLength a + n) (a ++ b)
      = (splitAt? n b).map fun (before, after) => (a ++ before, after) := by
  induction a with
  | nil => simp
  | cons c a ih =>
    obtain ⟨m, hm⟩ : ∃ m, byteLength (c :: a) + n = m + 1 :=
      Nat.exists_eq_add_one.2 (by have := c.utf8Size_pos; rw [byteLength_cons]; omega)
    rw [hm, List.cons_append, splitAt?, ← hm, byteLength_cons, if_pos (by omega), Nat.add_assoc,
      Nat.add_sub_cancel_left, ih, Option.map_map]
    rfl

theorem drop?_append (a b : List Char) (n : Nat) : drop? (byteLength a + n) (a ++ b) = drop? n b := by
  rw [drop?, drop?, splitAt?_append, Option.map_map]
  rfl

theorem slice?_append (a b : List Char) (start width : Nat) :
    slice? (byteLength a + start) (byteLength a + start + width) (a ++ b)
      = slice? start (start + width) b := by
  rw [slice?, slice?, if_pos (Nat.le_add_right _ _), if_pos (Nat.le_add_right _ _), drop?_append,
    Nat.add_sub_cancel_left, Nat.add_sub_cancel_left]

/-! ## Search -/

/-- The needle begins at no character of `a` when `b` follows. -/
def Clean (needle a b : List Char) : Prop :=
  ∀ s, s <:+ a → s ≠ [] → ¬ needle <+: s ++ b

theorem clean_nil (needle b : List Char) : Clean needle [] b := by
  intro s hs hne
  exact absurd (List.suffix_nil.1 hs) hne

theorem clean_cons {needle a b : List Char} {c : Char} :
    Clean needle (c :: a) b ↔ ¬ needle <+: c :: (a ++ b) ∧ Clean needle a b := by
  constructor
  · intro h
    exact ⟨h (c :: a) List.suffix_rfl (by simp),
      fun s hs => h s (hs.trans (List.suffix_cons c a))⟩
  · rintro ⟨hc, h⟩ s hs hne
    rcases List.suffix_cons_iff.1 hs with rfl | hs'
    · exact hc
    · exact h s hs' hne

theorem clean_append {needle a b c : List Char} (ha : Clean needle a (b ++ c))
    (hb : Clean needle b c) : Clean needle (a ++ b) c := by
  induction a with
  | nil => exact hb
  | cons x a ih =>
    obtain ⟨hx, ha'⟩ := clean_cons.1 ha
    exact clean_cons.2 ⟨by simpa using hx, ih ha'⟩

/-- A longer needle begins at fewer places. -/
theorem Clean.longer {needle needle' a b : List Char} (h : Clean needle a b)
    (hn : needle <+: needle') : Clean needle' a b :=
  fun s hs hne hp => h s hs hne (hn.trans hp)

/-- A search finds the leftmost occurrence. -/
theorem find?_eq_some_iff {needle cs : List Char} {n : Nat} :
    find? needle cs = some n ↔
      ∃ a b, cs = a ++ (needle ++ b) ∧ byteLength a = n ∧ Clean needle a (needle ++ b) := by
  induction cs generalizing n with
  | nil =>
    constructor
    · intro h
      cases needle with
      | nil => exact ⟨[], [], rfl, by simpa [find?] using h, clean_nil _ _⟩
      | cons c needle => simp [find?] at h
    · rintro ⟨a, b, h, rfl, -⟩
      obtain ⟨rfl, hnb⟩ := List.append_eq_nil_iff.1 h.symm
      obtain ⟨rfl, rfl⟩ := List.append_eq_nil_iff.1 hnb
      rfl
  | cons c cs ih =>
    by_cases hp : needle <+: c :: cs
    · have hfound : find? needle (c :: cs) = some 0 := by
        rw [find?, if_pos (List.isPrefixOf_iff_prefix.2 hp)]
      obtain ⟨rest, hrest⟩ := hp
      rw [hfound]
      constructor
      · intro h
        exact ⟨[], rest, hrest.symm, by simpa using h, clean_nil _ _⟩
      · rintro ⟨a, b, h, rfl, ha⟩
        -- an occurrence further right would not be the leftmost
        cases a with
        | nil => rfl
        | cons d a =>
          rw [List.cons_append] at h
          exact absurd ⟨rest, hrest.trans h⟩ (clean_cons.1 ha).1
    · have hstep : find? needle (c :: cs) = (find? needle cs).map (c.utf8Size + ·) := by
        rw [find?, if_neg fun h => hp (List.isPrefixOf_iff_prefix.1 h)]
      rw [hstep, Option.map_eq_some_iff]
      constructor
      · rintro ⟨m, hm, rfl⟩
        obtain ⟨a, b, rfl, rfl, ha⟩ := ih.1 hm
        exact ⟨c :: a, b, rfl, rfl, clean_cons.2 ⟨hp, ha⟩⟩
      · rintro ⟨a, b, h, rfl, ha⟩
        cases a with
        | nil => exact absurd ⟨b, h.symm⟩ hp
        | cons d a =>
          obtain ⟨rfl, rfl⟩ := List.cons.inj h
          exact ⟨byteLength a, ih.2 ⟨a, b, rfl, rfl, (clean_cons.1 ha).2⟩, rfl⟩

/-! ## Replacement -/

variable {needle replacement : List Char}

/-- Fuel for every character is enough, and more does not matter. -/
private theorem replaceWithin_eq (hn : needle ≠ []) {fuel : Nat} {cs : List Char}
    (hf : cs.length ≤ fuel) :
    replaceWithin needle replacement fuel cs = replaceAll needle replacement cs := by
  have aux : ∀ (m n : Nat) (cs : List Char), cs.length ≤ m → cs.length ≤ n →
      replaceWithin needle replacement m cs = replaceWithin needle replacement n cs := by
    intro m
    induction m with
    | zero =>
      intro n cs hm _
      obtain rfl : cs = [] := List.length_eq_zero_iff.1 (by omega)
      cases n <;> rfl
    | succ m ih =>
      intro n cs hm hn'
      cases cs with
      | nil => cases n <;> rfl
      | cons c cs =>
        cases n with
        | zero => simp at hn'
        | succ n =>
          have hpos : 0 < needle.length := List.length_pos_iff.2 hn
          simp only [List.length_cons] at hm hn'
          simp only [replaceWithin]
          split
          · rw [ih n] <;> simp only [List.length_drop, List.length_cons] <;> omega
          · rw [ih n] <;> omega
  exact aux fuel cs.length cs hf (Nat.le_refl _)

/-- A character at which the needle does not begin stays. -/
theorem replaceAll_cons {c : Char} {cs : List Char} (h : ¬ needle <+: c :: cs) :
    replaceAll needle replacement (c :: cs) = c :: replaceAll needle replacement cs := by
  have hp : needle.isPrefixOf (c :: cs) = false := by
    rw [Bool.eq_false_iff]
    exact fun hp => h (List.isPrefixOf_iff_prefix.1 hp)
  rw [replaceAll, List.length_cons, replaceWithin, hp]
  rfl

/-- A part in which the needle begins nowhere stays. -/
theorem replaceAll_append_of_clean {a b : List Char}
    (h : Clean needle a b) :
    replaceAll needle replacement (a ++ b) = a ++ replaceAll needle replacement b := by
  induction a with
  | nil => rfl
  | cons c a ih =>
    obtain ⟨hhead, htail⟩ := clean_cons.1 h
    rw [List.cons_append, replaceAll_cons hhead, ih htail, List.cons_append]

/-- The needle gives way to its replacement. -/
theorem replaceAll_needle_append (hn : needle ≠ []) (cs : List Char) :
    replaceAll needle replacement (needle ++ cs)
      = replacement ++ replaceAll needle replacement cs := by
  obtain ⟨c, rest, rfl⟩ := List.exists_cons_of_ne_nil hn
  have hp : (c :: rest).isPrefixOf (c :: (rest ++ cs)) = true :=
    List.isPrefixOf_iff_prefix.2 ⟨cs, rfl⟩
  rw [replaceAll, List.cons_append, List.length_cons, replaceWithin, if_pos hp]
  have hdrop : (c :: (rest ++ cs)).drop (c :: rest).length = cs := by simp
  rw [hdrop, replaceWithin_eq hn (by simp)]

end Provenance.Text
