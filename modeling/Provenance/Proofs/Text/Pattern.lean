/-!
# Patterns

Text is searched for what a pattern matches, and some characters are operators of patterns. The pattern
of a text marks its operators so that they stand for themselves, and matches this text and nothing
else (`literal?_escape`).
-/

namespace Provenance.Text.Pattern

/-- Marks an operator that stands for itself. -/
def escapeMark : Char := '\\'

/-- Whether a character is an operator of patterns. -/
def isOperator (c : Char) : Bool :=
  [escapeMark, '.', '+', '*', '?', '(', ')', '|', '[', ']', '{', '}', '^', '$', '#', '&', '-',
    '~'].contains c

/-- The pattern of a text. -/
def escape (text : List Char) : List Char :=
  text.flatMap fun c => if isOperator c then [escapeMark, c] else [c]

/-- The only text that a pattern matches. None if the pattern has operators, or ends after a mark. -/
def literal? : List Char → Option (List Char)
  | [] => some []
  | [c] => if isOperator c then none else some [c]
  | c :: d :: pattern =>
    if c = escapeMark then
      if isOperator d then (literal? pattern).map (d :: ·) else none
    else if isOperator c then none
    else (literal? (d :: pattern)).map (c :: ·)

theorem literal?_cons {c : Char} (h : isOperator c = false) (pattern : List Char) :
    literal? (c :: pattern) = (literal? pattern).map (c :: ·) := by
  have hmark : c ≠ escapeMark := by
    rintro rfl
    exact absurd h (by decide)
  cases pattern with
  | nil => simp [literal?, h]
  | cons d pattern => rw [literal?, if_neg hmark, h, if_neg Bool.false_ne_true]

/-- Every text has a pattern, which matches it alone. -/
theorem literal?_escape (text : List Char) : literal? (escape text) = some text := by
  induction text with
  | nil => rfl
  | cons c text ih =>
    rw [escape, List.flatMap_cons]
    cases hc : isOperator c with
    | true =>
      rw [if_pos rfl, List.cons_append, List.singleton_append, literal?, if_pos rfl, hc, if_pos rfl]
      exact congrArg (Option.map _) ih
    | false =>
      rw [if_neg Bool.false_ne_true, List.singleton_append, literal?_cons hc]
      exact congrArg (Option.map _) ih

end Provenance.Text.Pattern
