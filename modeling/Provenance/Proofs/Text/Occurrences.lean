import Provenance.Proofs.Text.Replacement

/-!
# Occurrences

Where a part stands in a text, and where a replacement puts something in: at the occurrences of the
needle that are met from left to right without overlaps. A part that none of these touches stays where
it is (`StandsAt.replaceAll`).
-/

namespace Provenance.Text

variable {needle replacement part a b cs : List Char} {c : Char} {k : Nat}

/-! ## Places -/

/-- The part stands in the text after `k` bytes. -/
def StandsAt (part : List Char) (k : Nat) (cs : List Char) : Prop :=
  ∃ before after, cs = before ++ (part ++ after) ∧ byteLength before = k

theorem standsAt_zero_iff : StandsAt part 0 cs ↔ part <+: cs := by
  constructor
  · rintro ⟨before, after, rfl, hb⟩
    rw [byteLength_eq_zero.1 hb]
    exact List.prefix_append _ _
  · rintro ⟨after, rfl⟩
    exact ⟨[], after, rfl, rfl⟩

/-- Behind a text the same stands as without it. -/
theorem standsAt_append_iff : StandsAt part (byteLength a + k) (a ++ b) ↔ StandsAt part k b := by
  constructor
  · rintro ⟨before, after, h, hb⟩
    rcases List.append_eq_append_iff.1 h with ⟨d, rfl, rfl⟩ | ⟨d, rfl, hd⟩
    · rw [byteLength_append] at hb
      exact ⟨d, after, rfl, by omega⟩
    · -- nothing is left for the piece between
      rw [byteLength_append] at hb
      obtain rfl : d = [] := byteLength_eq_zero.1 (by omega)
      exact ⟨[], after, by simpa using hd.symm, by simp only [byteLength_nil] at hb ⊢; omega⟩
  · rintro ⟨before, after, rfl, rfl⟩
    exact ⟨a ++ before, after, by rw [List.append_assoc], byteLength_append _ _⟩

theorem standsAt_nil (h : StandsAt part k []) : part = [] := by
  obtain ⟨before, after, h, -⟩ := h
  simp_all

theorem standsAt_cons_iff :
    StandsAt part k (c :: cs) ↔
      (k = 0 ∧ part <+: c :: cs) ∨ ∃ j, k = c.utf8Size + j ∧ StandsAt part j cs := by
  constructor
  · intro h
    obtain ⟨before, after, heq, hb⟩ := h
    cases before with
    | nil =>
      refine .inl ⟨hb.symm, ?_⟩
      rw [heq]
      exact List.prefix_append _ _
    | cons d before =>
      obtain ⟨rfl, rfl⟩ := List.cons.inj heq
      exact .inr ⟨byteLength before, hb.symm, before, after, rfl, rfl⟩
  · rintro (⟨rfl, hp⟩ | ⟨j, rfl, hj⟩)
    · exact standsAt_zero_iff.2 hp
    · exact (standsAt_append_iff (a := [c])).2 hj

/-- In a part where the needle does not begin it stands nowhere. -/
theorem Clean.not_standsAt (h : Clean needle a b) (hk : k < byteLength a) :
    ¬ StandsAt needle k (a ++ b) := by
  rintro ⟨before, after, heq, rfl⟩
  rcases List.append_eq_append_iff.1 heq with ⟨d, rfl, -⟩ | ⟨d, rfl, hd⟩
  · rw [byteLength_append] at hk
    omega
  · have hne : d ≠ [] := by
      rintro rfl
      rw [List.append_nil] at hk
      omega
    exact h d (List.suffix_append _ _) hne ⟨after, hd⟩

/-- What a search does not find stands nowhere. -/
theorem not_standsAt_of_find? (h : find? needle cs = none) : ¬ StandsAt needle k cs := by
  induction cs generalizing k with
  | nil =>
    intro hk
    rw [standsAt_nil hk] at h
    cases h
  | cons c cs ih =>
    rw [find?] at h
    split at h
    · cases h
    · next hp =>
      rw [standsAt_cons_iff]
      rintro (⟨-, hk⟩ | ⟨j, -, hj⟩)
      · exact hp (List.isPrefixOf_iff_prefix.2 hk)
      · exact ih (Option.map_eq_none_iff.1 h) hj

/-- A search finds the first place at which the needle stands. -/
theorem find?_eq_some_iff_standsAt :
    find? needle cs = some k ↔ StandsAt needle k cs ∧ ∀ j < k, ¬ StandsAt needle j cs := by
  have hfirst : ∀ {k}, find? needle cs = some k →
      StandsAt needle k cs ∧ ∀ j < k, ¬ StandsAt needle j cs := by
    intro k h
    obtain ⟨a, b, rfl, rfl, hclean⟩ := find?_eq_some_iff.1 h
    exact ⟨⟨a, b, rfl, rfl⟩, fun j hj => hclean.not_standsAt hj⟩
  refine ⟨hfirst, ?_⟩
  rintro ⟨hk, hbefore⟩
  cases hfind : find? needle cs with
  | none => exact absurd hk (not_standsAt_of_find? hfind)
  | some j =>
    obtain ⟨hj, hbefore'⟩ := hfirst hfind
    rcases Nat.lt_trichotomy j k with hlt | rfl | hlt
    · exact absurd hj (hbefore j hlt)
    · rfl
    · exact absurd hk (hbefore' k hlt)

/-- A part stands at a place if the text from there on begins with it. -/
theorem standsAt_iff_drop? : StandsAt part k cs ↔ ∃ tail, drop? k cs = some tail ∧ part <+: tail := by
  simp only [drop?_eq_some_iff]
  constructor
  · rintro ⟨before, after, rfl, hb⟩
    exact ⟨part ++ after, ⟨before, rfl, hb⟩, List.prefix_append _ _⟩
  · rintro ⟨_, ⟨before, rfl, hb⟩, after, rfl⟩
    exact ⟨before, after, rfl, hb⟩

/-- At one place stands one part of a length. -/
theorem StandsAt.eq_of_byteLength {other : List Char} (h : StandsAt part k cs)
    (h' : StandsAt other k cs) (hlen : byteLength part = byteLength other) : part = other := by
  obtain ⟨_, hdrop, after, rfl⟩ := standsAt_iff_drop?.1 h
  obtain ⟨_, hdrop', after', rfl⟩ := standsAt_iff_drop?.1 h'
  -- both are cut out of the same rest of the text
  have hpart : splitAt? (byteLength other) (part ++ after) = some (part, after) :=
    splitAt?_eq_some_iff.2 ⟨rfl, hlen⟩
  have hother : splitAt? (byteLength other) (part ++ after) = some (other, after') :=
    splitAt?_eq_some_iff.2 ⟨Option.some.inj (hdrop.symm.trans hdrop'), rfl⟩
  exact (Prod.mk.inj (Option.some.inj (hpart.symm.trans hother))).1

/-! ## Occurrences met from left to right -/

/-- The occurrences of the needle in a text that begins at byte `offset`, of which so many characters
belong to the occurrence before. -/
def occurrencesFrom (needle : List Char) : (passed offset : Nat) → List Char → List Nat
  | _, _, [] => []
  | passed + 1, offset, c :: cs => occurrencesFrom needle passed (offset + c.utf8Size) cs
  | 0, offset, c :: cs =>
    if needle.isPrefixOf (c :: cs) then
      offset :: occurrencesFrom needle (needle.length - 1) (offset + c.utf8Size) cs
    else occurrencesFrom needle 0 (offset + c.utf8Size) cs

/-- The places at which a replacement puts something in. -/
def occurrences (needle cs : List Char) : List Nat := occurrencesFrom needle 0 0 cs

/-- The rest of an occurrence is passed over. -/
private theorem occurrencesFrom_append (a : List Char) (offset : Nat) :
    occurrencesFrom needle a.length offset (a ++ cs)
      = occurrencesFrom needle 0 (offset + byteLength a) cs := by
  induction a generalizing offset with
  | nil => rfl
  | cons c a ih =>
    rw [List.cons_append, List.length_cons, occurrencesFrom, ih, byteLength_cons, Nat.add_assoc]

private theorem occurrencesFrom_offset (passed offset : Nat) :
    occurrencesFrom needle passed offset cs
      = (occurrencesFrom needle passed 0 cs).map (offset + ·) := by
  induction cs generalizing passed offset with
  | nil => rfl
  | cons c cs ih =>
    have hshift : ∀ passed, occurrencesFrom needle passed (offset + c.utf8Size) cs
        = (occurrencesFrom needle passed (0 + c.utf8Size) cs).map (offset + ·) := by
      intro passed
      rw [ih, ih passed (0 + c.utf8Size), List.map_map]
      refine List.map_congr_left fun p _ => ?_
      simp only [Function.comp_apply]
      omega
    cases passed with
    | zero =>
      unfold occurrencesFrom
      split
      · rw [hshift, List.map_cons, Nat.add_zero]
      · exact hshift 0
    | succ passed => exact hshift passed

theorem occurrences_cons (h : ¬ needle <+: c :: cs) :
    occurrences needle (c :: cs) = (occurrences needle cs).map (c.utf8Size + ·) := by
  have hp : needle.isPrefixOf (c :: cs) = false := by
    rw [Bool.eq_false_iff]
    exact fun hp => h (List.isPrefixOf_iff_prefix.1 hp)
  rw [occurrences, occurrencesFrom, hp, if_neg Bool.false_ne_true, occurrencesFrom_offset,
    Nat.zero_add]
  rfl

theorem occurrences_needle_append (hn : needle ≠ []) :
    occurrences needle (needle ++ cs)
      = 0 :: (occurrences needle cs).map (byteLength needle + ·) := by
  obtain ⟨c, rest, rfl⟩ := List.exists_cons_of_ne_nil hn
  have hp : (c :: rest).isPrefixOf (c :: (rest ++ cs)) = true :=
    List.isPrefixOf_iff_prefix.2 ⟨cs, rfl⟩
  rw [occurrences, List.cons_append, occurrencesFrom, if_pos hp, List.length_cons,
    Nat.add_sub_cancel, occurrencesFrom_append, occurrencesFrom_offset, Nat.zero_add, byteLength_cons]
  rfl

/-- A text is gone through from left to right: the needle is passed over as a whole, and any other
character by itself. -/
theorem needle_induction {P : List Char → Prop} (hn : needle ≠ []) (nil : P [])
    (found : ∀ rest, P rest → P (needle ++ rest))
    (cons : ∀ c cs, ¬ needle <+: c :: cs → P cs → P (c :: cs)) (cs : List Char) : P cs := by
  have aux : ∀ n (cs : List Char), cs.length ≤ n → P cs := by
    intro n
    induction n with
    | zero =>
      intro cs hlen
      rw [List.length_eq_zero_iff.1 (Nat.le_zero.1 hlen)]
      exact nil
    | succ n ih =>
      intro cs hlen
      by_cases hp : needle <+: cs
      · obtain ⟨rest, rfl⟩ := hp
        have hpos : 0 < needle.length := List.length_pos_iff.2 hn
        rw [List.length_append] at hlen
        exact found rest (ih rest (by omega))
      · cases cs with
        | nil => exact nil
        | cons c cs => exact cons c cs hp (ih cs (Nat.le_of_succ_le_succ hlen))
  exact aux cs.length cs (Nat.le_refl _)

theorem standsAt_of_mem_occurrences (hn : needle ≠ []) (h : k ∈ occurrences needle cs) :
    StandsAt needle k cs := by
  induction cs using needle_induction hn generalizing k with
  | nil => cases h
  | found rest ih =>
    rw [occurrences_needle_append hn] at h
    rcases List.mem_cons.1 h with rfl | h
    · exact standsAt_zero_iff.2 (List.prefix_append _ _)
    · obtain ⟨j, hj, rfl⟩ := List.mem_map.1 h
      exact standsAt_append_iff.2 (ih hj)
  | cons c cs hp ih =>
    rw [occurrences_cons hp] at h
    obtain ⟨j, hj, rfl⟩ := List.mem_map.1 h
    exact standsAt_cons_iff.2 (.inr ⟨j, rfl, ih hj⟩)

/-- An occurrence that begins within no other one is met. -/
theorem mem_occurrences_of_standsAt (hn : needle ≠ []) (h : StandsAt needle k cs)
    (halone : ∀ j, StandsAt needle j cs → ¬ (j < k ∧ k < j + byteLength needle)) :
    k ∈ occurrences needle cs := by
  induction cs using needle_induction hn generalizing k with
  | nil => exact absurd (standsAt_nil h) hn
  | found rest ih =>
    rw [occurrences_needle_append hn]
    have hfirst := halone 0 (standsAt_zero_iff.2 (List.prefix_append _ _))
    by_cases hk : k = 0
    · rw [hk]
      exact List.mem_cons_self
    · obtain ⟨j, rfl⟩ : ∃ j, k = byteLength needle + j := ⟨k - byteLength needle, by omega⟩
      refine List.mem_cons_of_mem _ (List.mem_map_of_mem (ih (standsAt_append_iff.1 h) ?_))
      intro i hi
      have := halone _ (standsAt_append_iff.2 hi)
      omega
  | cons c cs hp ih =>
    rw [occurrences_cons hp]
    rcases standsAt_cons_iff.1 h with ⟨-, hk⟩ | ⟨j, rfl, hj⟩
    · exact absurd hk hp
    · refine List.mem_map_of_mem (ih hj ?_)
      intro i hi
      have := halone _ (standsAt_cons_iff.2 (.inr ⟨i, rfl, hi⟩))
      omega

/-! ## What a replacement leaves -/

/-- A replacement of the needle's length keeps the length of the text. -/
theorem byteLength_replaceAll (hn : needle ≠ []) (hlen : byteLength replacement = byteLength needle) :
    byteLength (replaceAll needle replacement cs) = byteLength cs := by
  induction cs using needle_induction hn with
  | nil => rfl
  | found rest ih =>
    rw [replaceAll_needle_append hn, byteLength_append, byteLength_append, ih, hlen]
  | cons c cs hp ih => rw [replaceAll_cons hp, byteLength_cons, byteLength_cons, ih]

/-- A part that no replaced occurrence touches stays. -/
theorem StandsAt.replaceAll (hn : needle ≠ []) (hlen : byteLength replacement = byteLength needle)
    (h : StandsAt part k cs)
    (hapart : ∀ p ∈ occurrences needle cs, p + byteLength needle ≤ k ∨ k + byteLength part ≤ p) :
    StandsAt part k (replaceAll needle replacement cs) := by
  induction cs using needle_induction hn generalizing part k with
  | nil => exact h
  | found rest ih =>
    rw [occurrences_needle_append hn] at hapart
    rw [replaceAll_needle_append hn]
    rcases hapart 0 List.mem_cons_self with hle | hle
    · obtain ⟨j, rfl⟩ : ∃ j, k = byteLength needle + j := ⟨k - byteLength needle, by omega⟩
      rw [← hlen]
      refine standsAt_append_iff.2 (ih (standsAt_append_iff.1 h) ?_)
      intro p hp
      have := hapart _ (List.mem_cons_of_mem _ (List.mem_map_of_mem hp))
      omega
    · -- an empty part at the very start
      obtain rfl : part = [] := byteLength_eq_zero.1 (by omega)
      obtain rfl : k = 0 := by omega
      exact standsAt_zero_iff.2 (List.nil_prefix)
  | cons c cs hp ih =>
    rw [occurrences_cons hp] at hapart
    rw [replaceAll_cons hp]
    rcases standsAt_cons_iff.1 h with ⟨rfl, hk⟩ | ⟨j, rfl, hj⟩
    · cases part with
      | nil => exact standsAt_zero_iff.2 List.nil_prefix
      | cons d part =>
        obtain ⟨rfl, hpart⟩ := List.cons_prefix_cons.1 hk
        refine standsAt_zero_iff.2 (List.cons_prefix_cons.2 ⟨rfl, standsAt_zero_iff.1 ?_⟩)
        refine ih (standsAt_zero_iff.2 hpart) ?_
        intro p hp
        have := hapart _ (List.mem_map_of_mem hp)
        rw [byteLength_cons] at this
        omega
    · refine standsAt_cons_iff.2 (.inr ⟨j, rfl, ih hj ?_⟩)
      intro p hp
      have := hapart _ (List.mem_map_of_mem hp)
      omega

end Provenance.Text
