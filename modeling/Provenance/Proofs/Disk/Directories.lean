import Provenance.Proofs.Disk.Change

/-!
# More directories

Creating directories adds them where nothing stood (`Disk.Grows`). Whatever stood somewhere stays, and paths
that led to something lead to it still.
-/

namespace Provenance.Disk

variable {d d' d'' : Disk} {place goal : Place} {path : String} {mode : Nat} {content : Bytes}

/-- The content of the file at a place. -/
def contentAt (d : Disk) (place : Place) : Option Bytes :=
  match d.get? place with
  | some (.file _ content) => some content
  | _ => none

theorem contentAt_eq_some_iff :
    d.contentAt place = some content ↔ ∃ mode, d.get? place = some (.file mode content) := by
  unfold contentAt
  split <;> simp_all

theorem contentAt_congr (h : d'.get? place = d.get? place) : d'.contentAt place = d.contentAt place := by
  rw [contentAt, contentAt, h]

/-- A path to a name leads to a file that can be read if its place holds it. -/
theorem read_join_eq_ok_iff {directory name : String} (hname : Path.IsName name) :
    d.read (Path.join directory name) = .ok content ↔
      ∃ place, d.locate (Path.join directory name) = .ok place ∧ d.contentAt place = some content := by
  simp only [contentAt_eq_some_iff, ← exists_and_left, ← find_join_iff hname]
  rw [read, bind_eq_ok_iff]
  constructor
  · rintro ⟨⟨place, entry⟩, hfind, hread⟩
    cases entry with
    | directory => cases hread
    | file mode content =>
      cases hread
      exact ⟨place, mode, hfind⟩
  · rintro ⟨place, mode, hfind⟩
    exact ⟨_, hfind, rfl⟩

/-! ## Growing -/

/-- A disk has what another one has, and further directories. -/
structure Grows (d d' : Disk) : Prop where
  current : d'.current = d.current
  get? : ∀ place, d'.get? place = d.get? place ∨
    (d.get? place = none ∧ d'.get? place = some .directory)

namespace Grows

theorem refl (d : Disk) : Grows d d := ⟨rfl, fun _ => .inl rfl⟩

theorem trans (h : Grows d d') (h' : Grows d' d'') : Grows d d'' := by
  refine ⟨h'.current.trans h.current, fun place => ?_⟩
  rcases h.get? place with hsame | ⟨hnone, hnew⟩
  · rcases h'.get? place with hsame' | ⟨hnone', hnew'⟩
    · exact .inl (hsame'.trans hsame)
    · exact .inr ⟨hsame ▸ hnone', hnew'⟩
  · rcases h'.get? place with hsame' | ⟨hnone', -⟩
    · exact .inr ⟨hnone, hsame'.trans hnew⟩
    · rw [hnew] at hnone'
      cases hnone'

theorem get?_of_some (h : Grows d d') {entry : Entry} (hget : d.get? place = some entry) :
    d'.get? place = some entry := by
  rcases h.get? place with hsame | ⟨hnone, -⟩
  · exact hsame.trans hget
  · rw [hget] at hnone
    cases hnone

/-- All files keep their content, and none come up. -/
theorem contentAt (h : Grows d d') (place : Place) : d'.contentAt place = d.contentAt place := by
  rcases h.get? place with hsame | ⟨hnone, hnew⟩
  · exact contentAt_congr hsame
  · rw [Disk.contentAt, Disk.contentAt, hnone, hnew]

/-- What led somewhere leads there still. -/
theorem locate (h : Grows d d') (hlocate : d.locate path = .ok place) :
    d'.locate path = .ok place :=
  locate_of_directories h.current (fun _ => h.get?_of_some) hlocate

/-- A directory may be put where nothing stands. -/
theorem put (h : d.get? place = none) : Grows d (d.put place .directory) := by
  have hfree : d.get? place ≠ some .directory := by simp [h]
  refine ⟨rfl, fun other => ?_⟩
  rw [get?_put (ne_root_of_not_directory hfree)]
  split
  · next heq => exact .inr ⟨heq ▸ h, rfl⟩
  · exact .inl rfl

end Grows

/-! ## Creating directories -/

theorem grows_createBelow {components : List String} (h : d.createBelow place components = .ok d') :
    Grows d d' := by
  induction components generalizing d place with
  | nil =>
    rw [createBelow] at h
    split at h
    · cases h
      exact .refl _
    · cases h
  | cons c components ih =>
    rw [createBelow] at h
    split at h
    · cases h
    · split at h
      · exact ih h
      · split at h
        · cases h
        · dsimp only at h
          split at h
          · next hnone => exact (Grows.put hnone).trans (ih h)
          · exact ih h

theorem grows_createDirectories (h : d.createDirectories path = .ok d') : Grows d d' := by
  unfold createDirectories at h
  split at h
  · cases h
    exact .refl d
  · split at h
    · cases h
    · split at h
      · cases h
      · exact grows_createBelow h

end Provenance.Disk
