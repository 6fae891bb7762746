import Provenance.Proofs.Bytecode.Linking
import Provenance.Proofs.Bytecode.Scan

/-!
# What is collected from the windows

The windows of a template are judged one after the other (`Passes`, `Fails`). If all pass, each token has
the address at its first window; else the error is that of the first window that fails
(`collect_by_windows`). A token that was met before is not judged again.
-/

namespace Provenance.Bytecode

open Text

variable {template actual placeholder token : List Char} {known : List (List Char)}
  {before offsets : List Nat} {offset k : Nat} {e : LinkError}

/-! ## The judgement on one window -/

/-- None of the windows before has this text. -/
def IsNew (template : List Char) (before : List Nat) (placeholder : List Char) : Prop :=
  ∀ k ∈ before, windowAt? template k ≠ some placeholder

/-- The window at an offset is within the template, and if its text is new the deployed code has an
address at the same offset. -/
def Passes (template actual : List Char) (before : List Nat) (offset : Nat) : Prop :=
  ∃ placeholder, windowAt? template offset = some placeholder ∧
    (IsNew template before placeholder → ∃ a : Digits, windowAt? actual offset = some a.text)

/-- The error of the window at an offset: it is not within the template, or its text is new and the
deployed code ends before the window does, or has something there that is no address. -/
inductive Fails (template actual : List Char) (before : List Nat) (offset : Nat) : LinkError → Prop where
  | truncated (hwindow : windowAt? template offset = none) :
    Fails template actual before offset (.truncated offset)
  | outOfRange {placeholder : List Char} (hwindow : windowAt? template offset = some placeholder)
      (hnew : IsNew template before placeholder) (hactual : windowAt? actual offset = none) :
    Fails template actual before offset (.outOfRange placeholder offset (byteLength actual))
  | notAddress {placeholder found : List Char} (hwindow : windowAt? template offset = some placeholder)
      (hnew : IsNew template before placeholder) (hactual : windowAt? actual offset = some found)
      (hdigits : ∀ a : Digits, found ≠ a.text) :
    Fails template actual before offset (.notAddress placeholder offset found)

theorem isNew_append_singleton :
    IsNew template (before ++ [offset]) placeholder ↔
      IsNew template before placeholder ∧ windowAt? template offset ≠ some placeholder := by
  simp only [IsNew, List.forall_mem_append, List.forall_mem_singleton]

/-- As many bytes as an address takes are one if they are all digits. -/
private theorem exists_digits_iff {found : List Char} (hwidth : byteLength found = placeholderWidth) :
    (∃ a : Digits, found = a.text) ↔ found.all Hex.isDigit = true := by
  constructor
  · rintro ⟨a, rfl⟩
    exact a.text_digits
  · intro hd
    exact ⟨⟨found, (Hex.byteLength_of_digits hd).symm.trans hwidth, hd⟩, rfl⟩

/-- An address is missing where the deployed code ends before it, or has something else there. -/
theorem addressAt_eq_error_iff :
    addressAt actual placeholder offset = .error e ↔
      (windowAt? actual offset = none ∧ e = .outOfRange placeholder offset (byteLength actual)) ∨
      ∃ found, windowAt? actual offset = some found ∧ (∀ a : Digits, found ≠ a.text) ∧
        e = .notAddress placeholder offset found := by
  rw [addressAt, ← windowAt?]
  cases hactual : windowAt? actual offset with
  | none => simp [eq_comm]
  | some found =>
    have hdigits := exists_digits_iff (windowAt?_eq_some_iff.1 hactual).2
    cases hd : found.all Hex.isDigit with
    | true =>
      obtain ⟨a, rfl⟩ := hdigits.2 hd
      constructor
      · intro h
        simp only [hd, if_true, reduceCtorEq] at h
      · rintro (⟨h, -⟩ | ⟨_, h, hno, -⟩)
        · cases h
        · exact absurd (Option.some.inj h).symm (hno a)
    | false =>
      have hno : ∀ a : Digits, found ≠ a.text := by
        intro a ha
        exact Bool.false_ne_true (hd.symm.trans (hdigits.1 ⟨a, ha⟩))
      simp only [hd, Bool.false_eq_true, if_false, Except.error.injEq, reduceCtorEq, false_and, false_or,
        Option.some.injEq, exists_eq_left']
      exact ⟨fun h => ⟨hno, h.symm⟩, fun h => h.2.symm⟩

/-- A window within the template passes if its text was met before, or there is an address. -/
theorem passes_iff (hwindow : windowAt? template offset = some placeholder) :
    Passes template actual before offset ↔
      (IsNew template before placeholder → ∃ a, addressAt actual placeholder offset = .ok a) := by
  have haddress : (∃ a, addressAt actual placeholder offset = .ok a) ↔
      ∃ a : Digits, windowAt? actual offset = some a.text := by
    simp only [addressAt_eq_ok_iff]
    constructor
    · rintro ⟨_, a, -, h⟩
      exact ⟨a, h⟩
    · rintro ⟨a, h⟩
      exact ⟨_, a, rfl, h⟩
  rw [haddress, Passes, hwindow]
  simp only [Option.some.injEq, exists_eq_left']

/-- A window within the template fails if its text is new and there is no address. -/
theorem fails_iff (hwindow : windowAt? template offset = some placeholder) :
    Fails template actual before offset e ↔
      IsNew template before placeholder ∧ addressAt actual placeholder offset = .error e := by
  rw [addressAt_eq_error_iff]
  constructor
  · rintro (h | ⟨h, hnew, hactual⟩ | ⟨h, hnew, hactual, hdigits⟩)
    · rw [hwindow] at h
      cases h
    · rw [hwindow, Option.some.injEq] at h
      subst h
      exact ⟨hnew, .inl ⟨hactual, rfl⟩⟩
    · rw [hwindow, Option.some.injEq] at h
      subst h
      exact ⟨hnew, .inr ⟨_, hactual, hdigits, rfl⟩⟩
  · rintro ⟨hnew, ⟨hactual, rfl⟩ | ⟨found, hactual, hdigits, rfl⟩⟩
    · exact .outOfRange hwindow hnew hactual
    · exact .notAddress hwindow hnew hactual hdigits

/-- A window outside the template fails for that reason alone. -/
theorem fails_iff_of_none (hwindow : windowAt? template offset = none) :
    Fails template actual before offset e ↔ e = .truncated offset := by
  constructor
  · rintro (- | ⟨h, -, -⟩ | ⟨h, -, -, -⟩)
    · rfl
    · rw [hwindow] at h
      cases h
    · rw [hwindow] at h
      cases h
  · rintro rfl
    exact .truncated hwindow

theorem not_passes_of_none (hwindow : windowAt? template offset = none) :
    ¬ Passes template actual before offset := by
  rintro ⟨placeholder, h, -⟩
  rw [hwindow] at h
  cases h

theorem Passes.not_fails (h : Passes template actual before offset) :
    ¬ Fails template actual before offset e := by
  obtain ⟨placeholder, hwindow, -⟩ := id h
  rw [fails_iff hwindow]
  rintro ⟨hnew, herror⟩
  obtain ⟨a, ha⟩ := (passes_iff hwindow).1 h hnew
  rw [herror] at ha
  cases ha

/-! ## The judgement on all windows -/

/-- All windows pass, where those in `before` went before. -/
def AllPass (template actual : List Char) (before offsets : List Nat) : Prop :=
  ∀ read offset, read ++ [offset] <+: offsets → Passes template actual (before ++ read) offset

/-- The first window that does not pass has this error. -/
def FirstFails (template actual : List Char) (before offsets : List Nat) (e : LinkError) : Prop :=
  ∃ read offset, read ++ [offset] <+: offsets ∧ AllPass template actual before read ∧
    Fails template actual (before ++ read) offset e

/-- Of the windows with this text the one at the offset is the first. -/
def FirstAt (template : List Char) (before offsets : List Nat) (token : List Char) (offset : Nat) : Prop :=
  ∃ read, read ++ [offset] <+: offsets ∧ windowAt? template offset = some token ∧
    IsNew template (before ++ read) token

private theorem append_singleton_prefix_cons {read : List Nat} :
    read ++ [k] <+: offset :: offsets ↔
      (read = [] ∧ k = offset) ∨ ∃ tail, read = offset :: tail ∧ tail ++ [k] <+: offsets := by
  cases read with
  | nil => simp [List.cons_prefix_cons]
  | cons o read => simp [List.cons_prefix_cons]

theorem allPass_nil : AllPass template actual before [] := by
  intro read offset h
  simp at h

theorem allPass_cons :
    AllPass template actual before (offset :: offsets) ↔
      Passes template actual before offset ∧ AllPass template actual (before ++ [offset]) offsets := by
  simp only [AllPass, append_singleton_prefix_cons]
  constructor
  · intro h
    refine ⟨by simpa using h [] offset (.inl ⟨rfl, rfl⟩), fun tail k htail => ?_⟩
    simpa using h (offset :: tail) k (.inr ⟨tail, rfl, htail⟩)
  · rintro ⟨hfirst, hrest⟩ read k (⟨rfl, rfl⟩ | ⟨tail, rfl, htail⟩)
    · simpa using hfirst
    · simpa using hrest tail k htail

/-- If all windows pass they are within the template. -/
theorem AllPass.exists_windowAt? (h : AllPass template actual before offsets) (hk : k ∈ offsets) :
    ∃ token, windowAt? template k = some token := by
  obtain ⟨read, rest, rfl⟩ := List.append_of_mem hk
  obtain ⟨token, hwindow, -⟩ := h read k ⟨rest, by simp⟩
  exact ⟨token, hwindow⟩

theorem not_firstFails_nil : ¬ FirstFails template actual before [] e := by
  rintro ⟨read, offset, h, -⟩
  simp at h

theorem firstFails_cons :
    FirstFails template actual before (offset :: offsets) e ↔
      Fails template actual before offset e ∨
        Passes template actual before offset ∧
          FirstFails template actual (before ++ [offset]) offsets e := by
  simp only [FirstFails, append_singleton_prefix_cons]
  constructor
  · rintro ⟨read, k, ⟨rfl, rfl⟩ | ⟨tail, rfl, htail⟩, hpass, hfail⟩
    · exact .inl (by simpa using hfail)
    · obtain ⟨hfirst, hrest⟩ := allPass_cons.1 hpass
      exact .inr ⟨hfirst, tail, k, htail, hrest, by simpa using hfail⟩
  · rintro (hfail | ⟨hfirst, tail, k, htail, hrest, hfail⟩)
    · exact ⟨[], offset, .inl ⟨rfl, rfl⟩, allPass_nil, by simpa using hfail⟩
    · exact ⟨offset :: tail, k, .inr ⟨tail, rfl, htail⟩, allPass_cons.2 ⟨hfirst, hrest⟩,
        by simpa using hfail⟩

theorem not_firstAt_nil : ¬ FirstAt template before [] token k := by
  rintro ⟨read, h, -⟩
  simp at h

theorem firstAt_cons :
    FirstAt template before (offset :: offsets) token k ↔
      (k = offset ∧ windowAt? template offset = some token ∧ IsNew template before token) ∨
        FirstAt template (before ++ [offset]) offsets token k := by
  simp only [FirstAt, append_singleton_prefix_cons]
  constructor
  · rintro ⟨read, ⟨rfl, rfl⟩ | ⟨tail, rfl, htail⟩, hwindow, hnew⟩
    · exact .inl ⟨rfl, hwindow, by simpa using hnew⟩
    · exact .inr ⟨tail, htail, hwindow, by simpa using hnew⟩
  · rintro (⟨rfl, hwindow, hnew⟩ | ⟨tail, htail, hwindow, hnew⟩)
    · exact ⟨[], .inl ⟨rfl, rfl⟩, hwindow, by simpa using hnew⟩
    · exact ⟨offset :: tail, .inr ⟨tail, rfl, htail⟩, hwindow, by simpa using hnew⟩

/-- The text of a first window was not met before. -/
theorem FirstAt.isNew (h : FirstAt template before offsets token k) : IsNew template before token := by
  obtain ⟨read, -, -, hnew⟩ := h
  exact fun j hj => hnew j (List.mem_append_left read hj)

theorem FirstAt.windowAt?_eq (h : FirstAt template before offsets token k) :
    windowAt? template k = some token := by
  obtain ⟨read, -, hwindow, -⟩ := h
  exact hwindow

theorem FirstAt.mem (h : FirstAt template before offsets token k) : k ∈ offsets := by
  obtain ⟨read, hread, -⟩ := h
  exact hread.subset (List.mem_append_right read List.mem_cons_self)

/-- There is one first window. -/
theorem FirstAt.unique {k' : Nat} (h : FirstAt template before offsets token k)
    (h' : FirstAt template before offsets token k') : k = k' := by
  induction offsets generalizing before with
  | nil => exact absurd h not_firstAt_nil
  | cons offset offsets ih =>
    rcases firstAt_cons.1 h with ⟨rfl, hwindow, -⟩ | hrest <;>
      rcases firstAt_cons.1 h' with ⟨rfl, hwindow', -⟩ | hrest'
    · rfl
    · exact absurd hwindow (isNew_append_singleton.1 hrest'.isNew).2
    · exact absurd hwindow' (isNew_append_singleton.1 hrest.isNew).2
    · exact ih hrest hrest'

/-- If all windows pass there is an address at each first window. -/
theorem FirstAt.exists_address (h : FirstAt template before offsets token k)
    (hall : AllPass template actual before offsets) : ∃ a : Digits, windowAt? actual k = some a.text := by
  obtain ⟨read, hread, hwindow, hnew⟩ := h
  obtain ⟨placeholder, hplaceholder, haddress⟩ := hall read k hread
  rw [hwindow, Option.some.injEq] at hplaceholder
  exact haddress (hplaceholder ▸ hnew)

theorem exists_firstAt (hnew : IsNew template before token) (hk : k ∈ offsets)
    (hwindow : windowAt? template k = some token) : ∃ first, FirstAt template before offsets token first := by
  induction offsets generalizing before with
  | nil => cases hk
  | cons offset offsets ih =>
    by_cases hfirst : windowAt? template offset = some token
    · exact ⟨offset, firstAt_cons.2 (.inl ⟨rfl, hfirst, hnew⟩)⟩
    · have hrest : k ∈ offsets := by
        refine (List.mem_cons.1 hk).resolve_left ?_
        rintro rfl
        exact hfirst hwindow
      obtain ⟨first, h⟩ := ih (isNew_append_singleton.2 ⟨hnew, hfirst⟩) hrest
      exact ⟨first, firstAt_cons.2 (.inr h)⟩

/-! ## What the scan finds -/

/-- The placeholders that are known are those of the windows before. -/
def Knows (template : List Char) (known : List (List Char)) (before : List Nat) : Prop :=
  ∀ placeholder, known.contains placeholder = true ↔ ¬ IsNew template before placeholder

/-- A window that passes adds what is new in it to what is found; one that fails ends the scan. -/
theorem resolveWindows_cons (h : Knows template known before) :
    (Passes template actual before offset ∧ ∃ new known', Knows template known' (before ++ [offset]) ∧
      (∀ r : Resolved, r ∈ new ↔ r.offset = offset ∧ windowAt? template offset = some r.placeholder ∧
        IsNew template before r.placeholder ∧ windowAt? actual offset = some r.address) ∧
      resolveWindows template actual known (offset :: offsets)
        = (new ++ (resolveWindows template actual known' offsets).1,
            (resolveWindows template actual known' offsets).2)) ∨
    ¬ Passes template actual before offset ∧ ∃ e, (∀ e', Fails template actual before offset e' ↔ e' = e) ∧
      resolveWindows template actual known (offset :: offsets) = ([], some e) := by
  cases hwindow : windowAt? template offset with
  | none =>
    refine .inr ⟨not_passes_of_none hwindow, _, fun e' => fails_iff_of_none hwindow, ?_⟩
    rw [resolveWindows, hwindow]
  | some placeholder =>
    have hother : ∀ p, IsNew template (before ++ [offset]) p ↔ IsNew template before p ∧ placeholder ≠ p := by
      intro p
      rw [isNew_append_singleton, hwindow, ne_eq, Option.some.injEq]
    by_cases hmet : known.contains placeholder = true
    · -- nothing is asked about a text that was met before
      have hold := (h placeholder).1 hmet
      refine .inl ⟨(passes_iff hwindow).2 fun hnew => absurd hnew hold, [], known, fun p => ?_, fun r => ?_, ?_⟩
      · have hp : placeholder = p → ¬ IsNew template before p := fun heq => heq ▸ hold
        rw [h p, hother, not_and, not_not]
        exact ⟨fun hp' hnew => absurd hnew hp', fun hp' hnew => hp (hp' hnew) hnew⟩
      · simp only [List.not_mem_nil, Option.some.injEq, false_iff]
        rintro ⟨-, rfl, hnew, -⟩
        exact hold hnew
      · rw [resolveWindows, hwindow]
        simp only [hmet, if_true, List.nil_append]
    · have hnew : IsNew template before placeholder := by
        by_contra hold
        exact hmet ((h placeholder).2 hold)
      cases haddr : addressAt actual placeholder offset with
      | error e =>
        have hfail : Fails template actual before offset e := (fails_iff hwindow).2 ⟨hnew, haddr⟩
        refine .inr ⟨fun hpass => hpass.not_fails hfail, e, fun e' => ?_, ?_⟩
        · rw [fails_iff hwindow, haddr, Except.error.injEq]
          exact ⟨fun h => h.2.symm, fun h => ⟨hnew, h.symm⟩⟩
        · rw [resolveWindows, hwindow]
          simp only [hmet, haddr]
          rfl
      | ok address =>
        refine .inl ⟨(passes_iff hwindow).2 fun _ => ⟨address, haddr⟩, [⟨placeholder, offset, address⟩],
          placeholder :: known, fun p => ?_, fun r => ?_, ?_⟩
        · rw [List.contains_cons, Bool.or_eq_true, beq_iff_eq, h p, hother, not_and_or, not_not, or_comm,
            eq_comm]
        · obtain ⟨a, rfl, hactual⟩ := addressAt_eq_ok_iff.1 haddr
          rw [← windowAt?] at hactual
          rw [hactual, List.mem_singleton, Option.some.injEq, Option.some.injEq]
          constructor
          · rintro rfl
            exact ⟨rfl, rfl, hnew, rfl⟩
          · rintro ⟨rfl, rfl, -, hr⟩
            rw [hr]
        · rw [resolveWindows, hwindow]
          simp only [hmet, haddr]
          rfl

/-- The scan reaches the end if all windows pass, and else ends with the error of the first that does not. -/
theorem resolveWindows_snd (h : Knows template known before) :
    ((resolveWindows template actual known offsets).2 = none ↔ AllPass template actual before offsets) ∧
      ∀ e, (resolveWindows template actual known offsets).2 = some e ↔
        FirstFails template actual before offsets e := by
  induction offsets generalizing known before with
  | nil =>
    refine ⟨⟨fun _ => allPass_nil, fun _ => rfl⟩, fun e => ⟨fun he => ?_, fun he => ?_⟩⟩
    · cases he
    · exact absurd he not_firstFails_nil
  | cons offset offsets ih =>
    simp only [allPass_cons, firstFails_cons]
    rcases @resolveWindows_cons template actual known before offsets offset h with
      ⟨hpass, new, known', hknown', -, heq⟩ | ⟨hpass, e, hfail, heq⟩
    · obtain ⟨hend, herror⟩ := ih hknown'
      have hfail : ∀ e, ¬ Fails template actual before offset e := fun e => hpass.not_fails
      rw [heq]
      simp only [hend, herror, hpass, hfail, true_and, false_or, implies_true, and_self]
    · rw [heq]
      simp only [hpass, hfail, false_and, or_false, reduceCtorEq, Option.some.injEq, true_and]
      exact fun e' => eq_comm

/-- If the scan reaches the end, what is found are the first windows with the addresses there. -/
theorem mem_resolveWindows {r : Resolved} (h : Knows template known before)
    (hend : (resolveWindows template actual known offsets).2 = none) :
    r ∈ (resolveWindows template actual known offsets).1 ↔
      FirstAt template before offsets r.placeholder r.offset ∧ windowAt? actual r.offset = some r.address := by
  induction offsets generalizing known before with
  | nil => exact ⟨fun hr => absurd hr List.not_mem_nil, fun hr => absurd hr.1 not_firstAt_nil⟩
  | cons offset offsets ih =>
    rcases @resolveWindows_cons template actual known before offsets offset h with
      ⟨-, new, known', hknown', hnew, heq⟩ | ⟨-, e, -, heq⟩
    · rw [heq] at hend ⊢
      rw [List.mem_append, hnew, ih hknown' hend, firstAt_cons, or_and_right]
      refine or_congr_left ?_
      constructor
      · rintro ⟨rfl, hwindow, hnew, hactual⟩
        exact ⟨⟨rfl, hwindow, hnew⟩, hactual⟩
      · rintro ⟨⟨rfl, hwindow, hnew⟩, hactual⟩
        exact ⟨rfl, hwindow, hnew, hactual⟩
    · rw [heq] at hend
      cases hend

theorem knows_nil : Knows template [] [] := by
  intro placeholder
  simp [IsNew]

theorem collect_eq_ok_iff {addresses : Addresses} (hwindows : WindowsFrom template 0 offsets) :
    collect template actual = .ok addresses ↔ AllPass template actual [] offsets ∧
      addresses = Dictionary.ofList
        ((resolveWindows template actual [] offsets).1.map fun r => (r.placeholder, r.address)) := by
  rw [collect, scan_eq hwindows, ← (resolveWindows_snd knows_nil).1]
  generalize resolveWindows template actual [] offsets = result
  obtain ⟨found, _ | e⟩ := result
  · simp [eq_comm]
  · simp

theorem collect_eq_error_iff (hwindows : WindowsFrom template 0 offsets) :
    collect template actual = .error e ↔ FirstFails template actual [] offsets e := by
  rw [collect, scan_eq hwindows, ← (resolveWindows_snd knows_nil).2]
  generalize resolveWindows template actual [] offsets = result
  obtain ⟨found, _ | e⟩ := result <;> simp

/-! ## What is collected -/

section
variable {addresses : Addresses} {address : List Char}

/-- A token that is collected has the address at its first window. -/
theorem get?_of_collect (hwindows : WindowsFrom template 0 offsets)
    (h : collect template actual = .ok addresses) :
    Dictionary.get? token addresses = some address ↔
      ∃ offset, FirstAt template [] offsets token offset ∧ windowAt? actual offset = some address := by
  obtain ⟨hall, rfl⟩ := (collect_eq_ok_iff hwindows).1 h
  have hfound : ∀ r, r ∈ (resolveWindows template actual [] offsets).1 ↔
      FirstAt template [] offsets r.placeholder r.offset ∧ windowAt? actual r.offset = some r.address :=
    fun r => mem_resolveWindows knows_nil ((resolveWindows_snd knows_nil).1.2 hall)
  rw [Dictionary.get?_ofList]
  constructor
  · intro hget
    obtain ⟨r, hr, hentry⟩ := List.mem_map.1 (List.mem_reverse.1 (Dictionary.mem_of_get? hget))
    obtain ⟨rfl, rfl⟩ := Prod.mk.inj hentry
    exact ⟨r.offset, (hfound r).1 hr⟩
  · rintro ⟨offset, hfirst, hactual⟩
    have hmem := (hfound ⟨token, offset, address⟩).2 ⟨hfirst, hactual⟩
    refine Dictionary.get?_eq_some_of_forall ⟨_, List.mem_reverse.2 (List.mem_map_of_mem hmem), rfl⟩ ?_
    intro entry hentry hkey
    obtain ⟨r, hr, rfl⟩ := List.mem_map.1 (List.mem_reverse.1 hentry)
    obtain ⟨hfirst', hactual'⟩ := (hfound r).1 hr
    -- an entry under the same key comes from the same window
    obtain rfl : r.offset = offset := FirstAt.unique (hkey ▸ hfirst') hfirst
    rw [hactual, Option.some.injEq] at hactual'
    exact hactual'.symm

/-- The tokens that are collected are those of the windows. -/
theorem mem_keys_of_collect (hwindows : WindowsFrom template 0 offsets)
    (h : collect template actual = .ok addresses) :
    token ∈ Dictionary.keys addresses ↔ ∃ offset ∈ offsets, windowAt? template offset = some token := by
  rw [← Dictionary.get?_ne_none_iff, Option.ne_none_iff_exists']
  simp only [get?_of_collect hwindows h]
  constructor
  · rintro ⟨address, offset, hfirst, -⟩
    exact ⟨offset, hfirst.mem, hfirst.windowAt?_eq⟩
  · rintro ⟨offset, hoffset, hwindow⟩
    have hnew : IsNew template [] token := fun k hk => absurd hk List.not_mem_nil
    obtain ⟨first, hfirst⟩ := exists_firstAt hnew hoffset hwindow
    obtain ⟨a, ha⟩ := hfirst.exists_address ((collect_eq_ok_iff hwindows).1 h).1
    exact ⟨a.text, first, hfirst, ha⟩

theorem isSorted_of_collect (h : collect template actual = .ok addresses) :
    Dictionary.IsSorted addresses := by
  obtain ⟨offsets, hwindows⟩ := exists_windowsFrom template 0
  obtain ⟨-, rfl⟩ := (collect_eq_ok_iff hwindows).1 h
  exact Dictionary.isSorted_ofList

/-- The entries are placeholders with addresses. -/
def Addresses.Marked (d : Addresses) : Prop :=
  ∀ entry ∈ d, IsMarked entry.1 ∧ ∃ a : Digits, entry.2 = a.text

/-- What is collected are placeholders with addresses, and every mark of the template begins in one of
them. -/
theorem marked_of_collect {d : Addresses} (h : collect template actual = .ok d) :
    d.Marked ∧ ∀ k, MarkAt k template → ∃ entry ∈ d, ∃ offset, StandsAt entry.1 offset template ∧
      offset ≤ k ∧ k < offset + placeholderWidth := by
  obtain ⟨offsets, hwindows⟩ := exists_windowsFrom template 0
  have hall := ((collect_eq_ok_iff hwindows).1 h).1
  constructor
  · intro entry hentry
    have hget := (Dictionary.get?_eq_some_iff (isSorted_of_collect h)).2 hentry
    obtain ⟨offset, hfirst, hactual⟩ := (get?_of_collect hwindows h).1 hget
    obtain ⟨a, ha⟩ := hfirst.exists_address hall
    refine ⟨isMarked_of_windowAt? (hwindows.markAt hfirst.mem) hfirst.windowAt?_eq, a, ?_⟩
    exact Option.some.inj (hactual.symm.trans ha)
  · intro k hk
    obtain ⟨offset, hoffset, hle, hlt⟩ := hwindows.covers hk (Nat.zero_le k)
    obtain ⟨token, hwindow⟩ := hall.exists_windowAt? hoffset
    obtain ⟨entry, hentry, rfl⟩ :=
      List.mem_map.1 ((mem_keys_of_collect hwindows h).2 ⟨offset, hoffset, hwindow⟩)
    exact ⟨entry, hentry, offset, (windowAt?_eq_some_iff.1 hwindow).1, hle, hlt⟩

end

/-- A text has one list of windows, of which no more than fit into it, and the loop over them comes to an end:
with one turn more than there are windows, or still more, it has an outcome, and this is what is collected.
It is a success if all windows pass. Then the tokens are those of the windows, each with what the deployed code
has at its first window. Else it is the error of the first window that fails. -/
theorem collect_by_windows (template actual : List Char) :
    ∃ offsets, (∀ other, WindowsFrom template 0 other ↔ other = offsets) ∧
      placeholderWidth * offsets.length ≤ byteLength template + 37 ∧
      (∀ turns, offsets.length < turns →
        outcomeWithin template actual turns 0 [] = some (collect template actual)) ∧
      ((∃ addresses, collect template actual = .ok addresses) ↔ AllPass template actual [] offsets) ∧
      (∀ addresses, collect template actual = .ok addresses → Dictionary.IsSorted addresses ∧
        (∀ token, token ∈ Dictionary.keys addresses ↔
          ∃ offset ∈ offsets, windowAt? template offset = some token) ∧
        ∀ token address, Dictionary.get? token addresses = some address ↔
          ∃ offset, FirstAt template [] offsets token offset ∧ windowAt? actual offset = some address) ∧
      ∀ e, collect template actual = .error e ↔ FirstFails template actual [] offsets e := by
  obtain ⟨offsets, hwindows⟩ := exists_windowsFrom template 0
  refine ⟨offsets, fun other => ⟨hwindows.unique, fun h => h ▸ hwindows⟩, hwindows.length_le,
    fun turns => outcomeWithin_eq hwindows, ?_, ?_, fun e => collect_eq_error_iff hwindows⟩
  · simp only [collect_eq_ok_iff hwindows, exists_and_left, exists_eq, and_true]
  · intro addresses h
    exact ⟨isSorted_of_collect h, fun token => mem_keys_of_collect hwindows h,
      fun token address => get?_of_collect hwindows h⟩

/-- A token that was met before is not judged again: the deployed code may end before its second window. -/
example : collect ((Token.repeating '0' rfl).code ++ (Token.repeating '0' rfl).code)
    (List.replicate 40 'a') = .ok [((Token.repeating '0' rfl).code, List.replicate 40 'a')] := by
  decide +kernel

end Provenance.Bytecode
