import Provenance.Disk.Mishap
import Provenance.Proofs.Disk.Change

/-!
# Operations on two disks

An operation looks at the disk where its paths lead and nowhere else. On two disks that are the same
there (`SameAt`) it fails alike or changes both in the same way (`SameChange`).
-/

namespace Provenance.Disk

variable {d e : Disk} {path source target : String} {place : Place} {entry : Entry}
  {content : Bytes} {mode : Nat}

/-- Where components lead depends on what stands where. -/
theorem walk_congr (h : ∀ place, e.get? place = d.get? place) (components : List String) :
    e.walk place components = d.walk place components := by
  induction components generalizing place with
  | nil => rfl
  | cons component components ih => simp only [walk, h, ih]

/-- Where a path leads depends on what stands where. -/
theorem locate_congr (hcurrent : e.current = d.current) (h : ∀ place, e.get? place = d.get? place) :
    e.locate path = d.locate path := by
  simp only [locate, hcurrent, walk_congr h]

/-- On both disks a path leads to the same place, and the same stands there. -/
structure SameAt (path : String) (d e : Disk) : Prop where
  locate : e.locate path = d.locate path
  get? : ∀ place, d.locate path = .ok place → e.get? place = d.get? place

namespace SameAt

theorem find (h : SameAt path d e) : e.find path = d.find path := by
  unfold Disk.find
  rw [h.locate]
  cases hplace : d.locate path with
  | error fault => rfl
  | ok place => simp only [bind, Except.bind, h.get? place hplace]

theorem exists? (h : SameAt path d e) : e.exists? path = d.exists? path :=
  exists?_congr h.find

theorem opened (h : SameAt path d e) : e.opened path = d.opened path := by
  unfold Disk.opened
  rw [h.locate]
  cases hplace : d.locate path with
  | error fault => rfl
  | ok place => simp only [bind, Except.bind, h.get? place hplace]

end SameAt

/-! ## Changes -/

/-- What an operation made of two disks: it failed for the same reason, or it left the same at every
place where the same was. -/
def SameChange (d e : Disk) : Except IoFault Disk → Except IoFault Disk → Prop
  | .ok d', .ok e' => ∀ place, e.get? place = d.get? place → e'.get? place = d'.get? place
  | .error fault, .error fault' => fault' = fault
  | _, _ => False

/-- The same is put in a place of both disks. -/
theorem get?_put_congr (hplace : place ≠ []) {other : Place} (h : e.get? other = d.get? other) :
    (e.put place entry).get? other = (d.put place entry).get? other := by
  rw [get?_put hplace, get?_put hplace, h]

/-- The same place of both disks is cleared. -/
theorem get?_erase_congr (hplace : place ≠ []) {other : Place} (h : e.get? other = d.get? other) :
    (e.erase place).get? other = (d.erase place).get? other := by
  rw [get?_erase hplace, get?_erase hplace, h]

namespace SameAt

theorem write (h : SameAt path d e) (content : Bytes) :
    SameChange d e (d.write path content) (e.write path content) := by
  unfold Disk.write
  rw [h.opened]
  cases hopened : d.opened path with
  | error fault => rfl
  | ok result =>
    obtain ⟨-, hfree⟩ := opened_cases hopened
    intro place hsame
    exact get?_put_congr (ne_root_of_not_directory hfree) hsame

theorem setMode (h : SameAt path d e) (mode : Nat) :
    SameChange d e (d.setMode path mode) (e.setMode path mode) := by
  unfold Disk.setMode
  rw [h.find]
  cases hfound : d.find path with
  | error fault => rfl
  | ok result =>
    obtain ⟨place, entry⟩ := result
    cases entry with
    | directory => exact fun _ hsame => hsame
    | file old content =>
      obtain ⟨-, hget, -⟩ := find_eq_ok_iff.1 hfound
      have hfree : d.get? place ≠ some .directory := by simp [hget]
      intro other hsame
      exact get?_put_congr (ne_root_of_not_directory hfree) hsame

/-- A file is renamed alike on disks that are the same at both of its paths. -/
theorem rename (h : SameAt source d e) (h' : SameAt target d e)
    (hfile : d.find source = .ok (place, .file mode content)) :
    SameChange d e (d.rename source target) (e.rename source target) := by
  obtain ⟨-, hget, -⟩ := find_eq_ok_iff.1 hfile
  have hplace : d.get? place ≠ some .directory := by simp [hget]
  unfold Disk.rename
  rw [h.find, hfile, h'.locate]
  cases hgoal : d.locate target with
  | error fault => rfl
  | ok goal =>
    simp only [bind, Except.bind, h'.get? goal hgoal]
    split
    · rfl
    · next hfree =>
      split
      · rfl
      · intro other hsame
        refine get?_put_congr (ne_root_of_not_directory hfree) ?_
        exact get?_erase_congr (ne_root_of_not_directory hplace) hsame

end SameAt

/-! ## Changes that may go wrong -/

/-- What is made of two disks by an operation that may go wrong: the same result, and the same at every
place where the same was. -/
def SameOutcome (d e : Disk) (x y : Except IoFault Unit × Disk) : Prop :=
  y.1 = x.1 ∧ ∀ place, e.get? place = d.get? place → y.2.get? place = x.2.get? place

theorem SameOutcome.cases {x y : Except IoFault Unit × Disk} (h : SameOutcome d e x y) :
    ∃ result d' e', x = (result, d') ∧ y = (result, e') ∧
      ∀ place, e.get? place = d.get? place → e'.get? place = d'.get? place := by
  obtain ⟨result, d'⟩ := x
  obtain ⟨result', e'⟩ := y
  obtain ⟨rfl, hsame⟩ := h
  exact ⟨_, d', e', rfl, rfl, hsame⟩

theorem SameChange.changing {operation : Disk → Except IoFault Disk}
    (h : SameChange d e (operation d) (operation e)) (mishap : Option Mishap) :
    SameOutcome d e (d.changing mishap operation) (e.changing mishap operation) := by
  unfold Disk.changing asking
  cases mishap with
  | some m => exact ⟨rfl, fun _ hsame => hsame⟩
  | none =>
    dsimp only
    cases hd : operation d with
    | error fault => cases he : operation e with
      | error fault' =>
        rw [hd, he] at h
        exact ⟨congrArg Except.error h, fun _ hsame => hsame⟩
      | ok e' =>
        rw [hd, he] at h
        exact h.elim
    | ok d' => cases he : operation e with
      | error fault' =>
        rw [hd, he] at h
        exact h.elim
      | ok e' =>
        rw [hd, he] at h
        exact ⟨rfl, h⟩

theorem SameAt.writing (h : SameAt path d e) (mishap : Option Mishap) (content : Bytes) :
    SameOutcome d e (d.writing mishap path content) (e.writing mishap path content) := by
  unfold Disk.writing
  cases mishap with
  | none => exact (h.write content).changing none
  | some m =>
    dsimp only
    cases m.written with
    | none => exact ⟨rfl, fun _ hsame => hsame⟩
    | some n =>
      -- the part of the content that is written is written alike
      have hpart : SameOutcome d e (d.changing none (Disk.write path (content.take n)))
          (e.changing none (Disk.write path (content.take n))) :=
        (h.write (content.take n)).changing none
      obtain ⟨result, d', e', hd, he, hsame⟩ := hpart.cases
      dsimp only
      rw [hd, he]
      cases result with
      | ok _ => exact ⟨rfl, hsame⟩
      | error fault => exact ⟨rfl, hsame⟩

end Provenance.Disk
