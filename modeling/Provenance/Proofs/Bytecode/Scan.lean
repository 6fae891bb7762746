import Provenance.Proofs.Bytecode.Windows
import Provenance.Proofs.Dictionary

/-!
# The scan of a template

The scan of a template goes through its windows (`scan_eq`). So does a loop that keeps nothing but its place
in the template and the addresses found so far: it is over after one turn for each window and one more, with
what is collected as its outcome (`outcomeWithin_eq`).
-/

namespace Provenance.Bytecode

open Text

variable {template actual : List Char} {start : Nat} {offsets : List Nat}

/-! ## Going through the windows -/

/-- Asks at each window for the address of its placeholder, unless that is known already, up to the first
window that has none. -/
def resolveWindows (template actual : List Char) : (known : List (List Char)) → (offsets : List Nat) →
    List Resolved × Option LinkError
  | _, [] => ([], none)
  | known, offset :: offsets =>
    match windowAt? template offset with
    | none => ([], some (.truncated offset))
    | some placeholder =>
      if known.contains placeholder then resolveWindows template actual known offsets
      else
        match addressAt actual placeholder offset with
        | .error e => ([], some e)
        | .ok address =>
          let (more, e) := resolveWindows template actual (placeholder :: known) offsets
          (⟨placeholder, offset, address⟩ :: more, e)

section
variable {read rest : List Char} {offset : Nat}

/-- Behind the last window no mark is found. -/
private theorem find?_mark_eq_none (hno : ∀ k, byteLength read ≤ k → ¬ MarkAt k (read ++ rest)) :
    find? mark rest = none := by
  cases hfind : find? mark rest with
  | none => rfl
  | some k =>
    have hmark : MarkAt k rest := (find?_eq_some_iff_standsAt.1 hfind).1
    exact absurd (standsAt_append_iff.2 hmark) (hno _ (Nat.le_add_right _ k))

/-- The next window is where the next mark is found. -/
private theorem find?_mark_eq_some (hle : byteLength read ≤ offset) (hmark : MarkAt offset (read ++ rest))
    (hleft : ∀ k, byteLength read ≤ k → k < offset → ¬ MarkAt k (read ++ rest)) :
    ∃ distance, offset = byteLength read + distance ∧ find? mark rest = some distance := by
  obtain ⟨distance, rfl⟩ : ∃ distance, offset = byteLength read + distance := Nat.exists_eq_add_of_le hle
  refine ⟨distance, rfl, find?_eq_some_iff_standsAt.2 ⟨standsAt_append_iff.1 hmark, fun j hj hstands => ?_⟩⟩
  exact hleft _ (Nat.le_add_right _ j) (Nat.add_lt_add_left hj _) (standsAt_append_iff.2 hstands)

end

/-- The text of a window is what is cut out there. -/
private theorem windowAt?_append (read rest : List Char) (distance : Nat) :
    windowAt? (read ++ rest) (byteLength read + distance)
      = ((drop? distance rest).bind (splitAt? placeholderWidth)).map (·.1) := by
  rw [windowAt?, slice?_append, slice?, if_pos (Nat.le_add_right _ _), Nat.add_sub_cancel_left]
  cases drop? distance rest <;> rfl

/-- From the end of a window on the scan goes through the windows there. -/
private theorem scanFrom_eq {read rest : List Char} {fuel : Nat} {known : List (List Char)}
    (h : WindowsFrom template start offsets) (htemplate : template = read ++ rest)
    (hread : byteLength read = start) (hfuel : rest.length < fuel) :
    scanFrom actual fuel start rest known = resolveWindows template actual known offsets := by
  induction h generalizing read rest fuel known with
  | nil hno =>
    obtain ⟨fuel, rfl⟩ := Nat.exists_eq_add_one.2 (Nat.zero_lt_of_lt hfuel)
    subst htemplate hread
    rw [scanFrom, find?_mark_eq_none hno, resolveWindows]
  | @cons start offset offsets hle hmark hleft hrest ih =>
    obtain ⟨fuel, rfl⟩ := Nat.exists_eq_add_one.2 (Nat.zero_lt_of_lt hfuel)
    subst htemplate hread
    obtain ⟨distance, rfl, hfind⟩ := find?_mark_eq_some hle hmark hleft
    have hwindow := windowAt?_append read rest distance
    rw [scanFrom, hfind, resolveWindows]
    dsimp only
    cases hcut : (drop? distance rest).bind (splitAt? placeholderWidth) with
    | none => simp only [hwindow, hcut, Option.map_none]
    | some parts =>
      obtain ⟨placeholder, rest'⟩ := parts
      obtain ⟨tail, hdrop, hsplit⟩ := Option.bind_eq_some_iff.1 hcut
      obtain ⟨rfl, hwidth⟩ := splitAt?_eq_some_iff.1 hsplit
      obtain ⟨gap, rfl, rfl⟩ := drop?_eq_some_iff.1 hdrop
      have hnext : ∀ known, scanFrom actual fuel (byteLength read + byteLength gap + placeholderWidth)
          rest' known = resolveWindows (read ++ (gap ++ (placeholder ++ rest'))) actual known offsets := by
        intro known
        refine @ih (read ++ (gap ++ placeholder)) rest' fuel known (by simp) ?_ ?_
        · simp [hwidth, Nat.add_assoc]
        · have hpos : 0 < placeholder.length := by
            refine List.length_pos_iff.2 ?_
            rintro rfl
            exact absurd hwidth (by decide)
          simp only [List.length_append] at hfuel
          omega
      rw [hcut, Option.map_some] at hwindow
      rw [hwindow]
      dsimp only
      cases known.contains placeholder with
      | true => exact hnext known
      | false =>
        cases addressAt actual placeholder (byteLength read + byteLength gap) with
        | error e => rfl
        | ok address => simp only [Bool.false_eq_true, if_false, hnext]

/-- The scan goes through the windows of the template. -/
theorem scan_eq (h : WindowsFrom template 0 offsets) :
    scan template actual = resolveWindows template actual [] offsets :=
  scanFrom_eq h (List.nil_append _).symm rfl (Nat.lt_succ_self _)

/-! ## The loop -/

/-- What one turn of the loop comes to. -/
inductive Turn where
  /-- The last turn. -/
  | over (outcome : Except LinkError Addresses)
  /-- The next turn begins at byte `cursor`, with these addresses known. -/
  | on (cursor : Nat) (known : Addresses)

/-- Looks for the next window from byte `cursor` on and for the address of its placeholder. -/
def turn (template actual : List Char) (cursor : Nat) (known : Addresses) : Turn :=
  match (drop? cursor template).bind (find? mark) with
  | none => .over (.ok known)
  | some distance =>
    let offset := cursor + distance
    match windowAt? template offset with
    | none => .over (.error (.truncated offset))
    | some placeholder =>
      if Dictionary.contains placeholder known then .on (offset + placeholderWidth) known
      else
        match addressAt actual placeholder offset with
        | .error e => .over (.error e)
        | .ok address =>
          .on (offset + placeholderWidth) (Dictionary.insert placeholder address known)

/-- The outcome of the loop, if it is over after so many turns. -/
def outcomeWithin (template actual : List Char) : (turns : Nat) → (cursor : Nat) →
    (known : Addresses) → Option (Except LinkError Addresses)
  | 0, _, _ => none
  | turns + 1, cursor, known =>
    match turn template actual cursor known with
    | .over outcome => some outcome
    | .on cursor known => outcomeWithin template actual turns cursor known

/-- What is known after placeholders were resolved, if all were. -/
def extend (known : Addresses) : List Resolved × Option LinkError → Except LinkError Addresses
  | (found, none) => .ok (found.foldl (fun d r => Dictionary.insert r.placeholder r.address d) known)
  | (_, some e) => .error e

private theorem outcomeWithin_extend {read rest : List Char} {turns : Nat} {known : List (List Char)}
    {d : Addresses} (h : WindowsFrom template start offsets) (htemplate : template = read ++ rest)
    (hread : byteLength read = start) (hturns : offsets.length < turns)
    (hknown : ∀ placeholder, known.contains placeholder = Dictionary.contains placeholder d) :
    outcomeWithin template actual turns start d
      = some (extend d (resolveWindows template actual known offsets)) := by
  induction h generalizing read rest turns known d with
  | nil hno =>
    obtain ⟨turns, rfl⟩ := Nat.exists_eq_add_one.2 (Nat.zero_lt_of_lt hturns)
    subst htemplate hread
    have hdrop : drop? (byteLength read) (read ++ rest) = some rest := drop?_eq_some_iff.2 ⟨read, rfl, rfl⟩
    rw [outcomeWithin, turn, hdrop, Option.bind_some, find?_mark_eq_none hno]
    rfl
  | @cons start offset offsets hle hmark hleft hrest ih =>
    obtain ⟨turns, rfl⟩ := Nat.exists_eq_add_one.2 (Nat.zero_lt_of_lt hturns)
    subst htemplate hread
    obtain ⟨distance, rfl, hfind⟩ := find?_mark_eq_some hle hmark hleft
    have hdrop : drop? (byteLength read) (read ++ rest) = some rest := drop?_eq_some_iff.2 ⟨read, rfl, rfl⟩
    rw [outcomeWithin, turn, hdrop, Option.bind_some, hfind, resolveWindows]
    dsimp only
    cases hwindow : windowAt? (read ++ rest) (byteLength read + distance) with
    | none => rfl
    | some placeholder =>
      obtain ⟨⟨before, after, hcode, hbefore⟩, hwidth⟩ := windowAt?_eq_some_iff.1 hwindow
      have hnext : ∀ known d, (∀ p, known.contains p = Dictionary.contains p d) →
          outcomeWithin (read ++ rest) actual turns (byteLength read + distance + placeholderWidth) d
            = some (extend d (resolveWindows (read ++ rest) actual known offsets)) := by
        intro known d hknown
        refine @ih (before ++ placeholder) after turns known d (by simpa using hcode) ?_ ?_ hknown
        · rw [byteLength_append, hbefore, hwidth]
        · exact Nat.lt_of_succ_lt_succ hturns
      dsimp only
      rw [hknown placeholder]
      cases hmet : Dictionary.contains placeholder d with
      | true => simpa using hnext known d hknown
      | false =>
        cases haddr : addressAt actual placeholder (byteLength read + distance) with
        | error e => simp [extend]
        | ok address =>
          have hinserted : ∀ p, (placeholder :: known).contains p
              = Dictionary.contains p (Dictionary.insert placeholder address d) := by
            intro p
            rw [List.contains_cons, Dictionary.contains_insert, hknown, beq_eq_decide]
          simp only [Bool.false_eq_true, if_false]
          rw [hnext _ _ hinserted]
          generalize resolveWindows (read ++ rest) actual (placeholder :: known) offsets = result
          obtain ⟨more, e⟩ := result
          cases e <;> rfl

/-- With one turn more than there are windows, or still more, the loop is over, and what was collected is
its outcome. -/
theorem outcomeWithin_eq {turns : Nat} (h : WindowsFrom template 0 offsets)
    (hturns : offsets.length < turns) :
    outcomeWithin template actual turns 0 [] = some (collect template actual) := by
  have hloop : outcomeWithin template actual turns 0 []
      = some (extend [] (resolveWindows template actual [] offsets)) :=
    outcomeWithin_extend h (List.nil_append _).symm rfl hturns fun _ => rfl
  rw [hloop, collect, scan_eq h]
  generalize resolveWindows template actual [] offsets = result
  obtain ⟨found, e⟩ := result
  cases e with
  | some e => rfl
  | none => simp only [extend, Dictionary.ofList, List.foldl_map]

end Provenance.Bytecode
