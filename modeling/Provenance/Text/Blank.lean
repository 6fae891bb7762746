/-!
# Blanks

The blank characters (`White_Space`), and text without the blanks around it. `trim_append` says what
trimming removes.
-/

namespace Provenance.Text

/-- Whether a character is blank. -/
def isBlank (c : Char) : Bool :=
  let n := c.toNat
  (9 ≤ n && n ≤ 13) || n = 0x20 || n = 0x85 || n = 0xA0 || n = 0x1680 ||
    (0x2000 ≤ n && n ≤ 0x200A) || n = 0x2028 || n = 0x2029 || n = 0x202F || n = 0x205F || n = 0x3000

/-- The text without the characters of a class at its end. -/
def trimEndWhile (p : Char → Bool) (cs : List Char) : List Char :=
  (cs.reverse.dropWhile p).reverse

/-- The text without the characters of a class at both ends. -/
def trimWhile (p : Char → Bool) (cs : List Char) : List Char :=
  trimEndWhile p (cs.dropWhile p)

/-- The text without surrounding blanks. -/
def trim (cs : List Char) : List Char := trimWhile isBlank cs

private theorem dropWhile_append_of_all {p : Char → Bool} {a b : List Char}
    (h : ∀ c ∈ a, p c = true) : (a ++ b).dropWhile p = b.dropWhile p := by
  induction a with
  | nil => rfl
  | cons c a ih =>
    simp [h c (by simp), ih fun d hd => h d (by simp [hd])]

/-- Blanks put around a text do not change what is left after trimming. -/
theorem trim_append {before after cs : List Char} (hb : ∀ c ∈ before, isBlank c = true)
    (ha : ∀ c ∈ after, isBlank c = true) : trim (before ++ (cs ++ after)) = trim cs := by
  have ends : ∀ xs : List Char, trimEndWhile isBlank (xs ++ after) = trimEndWhile isBlank xs := by
    intro xs
    simp only [trimEndWhile, List.reverse_append]
    rw [dropWhile_append_of_all fun c hc => ha c (List.mem_reverse.1 hc)]
  unfold trim trimWhile
  rw [dropWhile_append_of_all hb]
  by_cases hall : ∀ c ∈ cs, isBlank c = true
  · have gone : ∀ xs : List Char, (∀ c ∈ xs, isBlank c = true) → xs.dropWhile isBlank = [] := by
      intro xs h
      have := dropWhile_append_of_all (b := []) h
      simpa only [List.append_nil, List.dropWhile_nil] using this
    have hall' : ∀ c ∈ cs ++ after, isBlank c = true := by
      intro c hc
      rcases List.mem_append.1 hc with h | h
      · exact hall c h
      · exact ha c h
    rw [gone _ hall, gone _ hall']
  · rw [← ends (cs.dropWhile isBlank)]
    congr 1
    clear ends
    induction cs with
    | nil => simp at hall
    | cons c cs ih =>
      by_cases hc : isBlank c = true
      · simp only [List.cons_append, List.dropWhile_cons, hc, if_true]
        exact ih fun h => hall fun d hd => by
          rcases List.mem_cons.1 hd with rfl | hd
          · exact hc
          · exact h d hd
      · simp [hc]

end Provenance.Text
