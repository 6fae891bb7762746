/-!
# Dictionaries

A dictionary is a list of entries in increasing order of key, one per key. `get?_insert` says what a
look-up finds after an entry was put in.
-/

namespace Provenance.Dictionary

variable {κ α β : Type} [Ord κ]

/-- The value under a key. -/
def get? [DecidableEq κ] (key : κ) (entries : List (κ × α)) : Option α :=
  (entries.find? fun entry => entry.1 = key).map (·.2)

/-- Whether there is an entry under a key. -/
def contains [DecidableEq κ] (key : κ) (entries : List (κ × α)) : Bool :=
  entries.any fun entry => entry.1 = key

/-- Puts an entry in its place; an entry under the same key is replaced. -/
def insert (key : κ) (value : α) : List (κ × α) → List (κ × α)
  | [] => [(key, value)]
  | (k, v) :: rest =>
    match compare key k with
    | .lt => (key, value) :: (k, v) :: rest
    | .eq => (key, value) :: rest
    | .gt => (k, v) :: insert key value rest

/-- The dictionary without the entry under a key. -/
def erase [DecidableEq κ] (key : κ) (entries : List (κ × α)) : List (κ × α) :=
  entries.filter fun entry => entry.1 ≠ key

/-- The dictionary of a list of entries, of which a later one replaces an earlier one. -/
def ofList (entries : List (κ × α)) : List (κ × α) :=
  entries.foldl (fun dictionary entry => insert entry.1 entry.2 dictionary) []

/-- The keys in increasing order. -/
def keys (entries : List (κ × α)) : List κ := entries.map (·.1)

/-- A look-up finds an inserted entry under its key and the former ones under all others. -/
theorem get?_insert [DecidableEq κ] [Std.LawfulEqOrd κ] {key k : κ} {value : α}
    {entries : List (κ × α)} :
    get? k (insert key value entries) = if k = key then some value else get? k entries := by
  induction entries with
  | nil =>
    by_cases h : k = key
    · simp [get?, insert, h]
    · simp [get?, insert, h, Ne.symm h]
  | cons entry rest ih =>
    obtain ⟨k', v⟩ := entry
    simp only [get?] at ih
    cases hc : compare key k' with
    | lt =>
      by_cases h : k = key
      · simp [get?, insert, hc, h]
      · simp [get?, insert, hc, h, Ne.symm h]
    | eq =>
      obtain rfl := Std.LawfulEqOrd.eq_of_compare hc
      by_cases h : k = key
      · simp [get?, insert, h]
      · simp [get?, insert, h, Ne.symm h]
    | gt =>
      by_cases h' : k' = k
      · subst h'
        have hne : k' ≠ key := by
          rintro rfl
          simp [Std.ReflOrd.compare_self] at hc
        simp [get?, insert, hc, hne]
      · simp only [get?, insert, hc, List.find?_cons, h', decide_false]
        exact ih

omit [Ord κ] in
/-- A look-up finds nothing under an erased key and the former entries under all others. -/
theorem get?_erase [DecidableEq κ] {key k : κ} {entries : List (κ × α)} :
    get? k (erase key entries) = if k = key then none else get? k entries := by
  induction entries with
  | nil => simp [get?, erase]
  | cons entry rest ih =>
    by_cases he : entry.1 = key
    · have : erase key (entry :: rest) = erase key rest := by simp [erase, he]
      rw [this, ih]
      by_cases h : k = key
      · simp [h]
      · simp [get?, he, h, Ne.symm h]
    · have : erase key (entry :: rest) = entry :: erase key rest := by simp [erase, he]
      rw [this]
      by_cases h : entry.1 = k
      · subst h
        simp [get?, he]
      · simp only [get?, List.find?_cons, h, decide_false] at ih ⊢
        exact ih

end Provenance.Dictionary
