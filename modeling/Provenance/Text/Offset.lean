/-!
# Byte offsets in text

Texts are measured in bytes of their UTF-8 form, and a text can be cut only between two characters.
`splitAt?_eq_some_iff` says when a cut exists and what it gives.
-/

namespace Provenance.Text

/-- The number of bytes of a text. -/
def byteLength : List Char → Nat
  | [] => 0
  | c :: cs => c.utf8Size + byteLength cs

@[simp] theorem byteLength_nil : byteLength [] = 0 := rfl

@[simp] theorem byteLength_cons (c : Char) (cs : List Char) :
    byteLength (c :: cs) = c.utf8Size + byteLength cs := rfl

@[simp] theorem byteLength_append (a b : List Char) :
    byteLength (a ++ b) = byteLength a + byteLength b := by
  induction a with
  | nil => simp
  | cons c a ih => simp [ih, Nat.add_assoc]

/-- A text without bytes is empty. -/
theorem byteLength_eq_zero {cs : List Char} : byteLength cs = 0 ↔ cs = [] := by
  cases cs with
  | nil => simp
  | cons c cs =>
    have := c.utf8Size_pos
    simp
    omega

/-- The parts before and after byte `n`, when a character ends there. -/
def splitAt? : (n : Nat) → List Char → Option (List Char × List Char)
  | 0, cs => some ([], cs)
  | _ + 1, [] => none
  | n + 1, c :: cs =>
    if c.utf8Size ≤ n + 1 then
      (splitAt? (n + 1 - c.utf8Size) cs).map fun (before, after) => (c :: before, after)
    else
      none

/-- A cut at byte `n` gives the two parts of which the first has `n` bytes. -/
theorem splitAt?_eq_some_iff {n : Nat} {cs before after : List Char} :
    splitAt? n cs = some (before, after) ↔ cs = before ++ after ∧ byteLength before = n := by
  induction cs generalizing n before with
  | nil =>
    cases n with
    | zero =>
      constructor
      · intro h
        simp only [splitAt?, Option.some.injEq, Prod.mk.injEq] at h
        simp [← h.1, ← h.2]
      · rintro ⟨h, _⟩
        simp [splitAt?, List.append_eq_nil_iff.1 h.symm]
    | succ n =>
      simp only [splitAt?, reduceCtorEq, false_iff, not_and]
      intro h
      simp [(List.append_eq_nil_iff.1 h.symm).1]
  | cons c cs ih =>
    cases n with
    | zero =>
      constructor
      · intro h
        simp only [splitAt?, Option.some.injEq, Prod.mk.injEq] at h
        simp [← h.1, ← h.2]
      · rintro ⟨h, h0⟩
        rw [byteLength_eq_zero] at h0
        simp [splitAt?, h, h0]
    | succ n =>
      simp only [splitAt?]
      constructor
      · intro h
        split at h
        · rename_i hc
          obtain ⟨⟨b, a⟩, hs, hp⟩ := Option.map_eq_some_iff.1 h
          simp only [Prod.mk.injEq] at hp
          obtain ⟨rfl, rfl⟩ := hp
          obtain ⟨rfl, hb⟩ := ih.1 hs
          exact ⟨rfl, by simp [hb]; omega⟩
        · simp at h
      · rintro ⟨h, hb⟩
        cases before with
        | nil => simp at hb
        | cons d before =>
          simp only [List.cons_append, List.cons.injEq] at h
          obtain ⟨rfl, rfl⟩ := h
          simp only [byteLength_cons] at hb
          rw [if_pos (by omega), ih.2 ⟨rfl, by omega⟩]
          rfl

/-- The text from byte `start` on. -/
def drop? (start : Nat) (cs : List Char) : Option (List Char) :=
  (splitAt? start cs).map (·.2)

/-- The text before byte `stop`. -/
def take? (stop : Nat) (cs : List Char) : Option (List Char) :=
  (splitAt? stop cs).map (·.1)

/-- The text from byte `start` to byte `stop`. -/
def slice? (start stop : Nat) (cs : List Char) : Option (List Char) :=
  if start ≤ stop then (drop? start cs).bind (take? (stop - start)) else none

/-- The byte offset of the leftmost occurrence of `needle`. -/
def find? (needle : List Char) : List Char → Option Nat
  | [] => if needle.isEmpty then some 0 else none
  | c :: cs =>
    if needle.isPrefixOf (c :: cs) then some 0 else (find? needle cs).map (c.utf8Size + ·)

/-- Replaces each occurrence of `needle`, searched from left to right without overlaps. -/
def replaceWithin (needle replacement : List Char) : (fuel : Nat) → List Char → List Char
  | 0, cs => cs
  | _ + 1, [] => []
  | fuel + 1, c :: cs =>
    if needle.isPrefixOf (c :: cs) then
      replacement ++ replaceWithin needle replacement fuel ((c :: cs).drop needle.length)
    else
      c :: replaceWithin needle replacement fuel cs

/-- Replaces each occurrence of a non-empty `needle`, from left to right without overlaps. -/
def replaceAll (needle replacement cs : List Char) : List Char :=
  replaceWithin needle replacement cs.length cs

end Provenance.Text
