import Provenance.Proofs.Disk.Name

/-!
# What changes of a disk leave

Writing a file, setting its permissions and renaming it change what stands at the places to which the
given paths lead. All directories stay, so that paths lead where they led.
-/

namespace Provenance.Disk

variable {d d' d'' : Disk} {place other goal : Place} {entry : Entry} {path source target : String}
  {content : Bytes} {mode : Nat}

/-! ## Looking up -/

/-- Something is found where a path leads; files are not found by a path to a directory. -/
theorem find_eq_ok_iff : d.find path = .ok (place, entry) ↔
    d.locate path = .ok place ∧ d.get? place = some entry ∧
      (Path.endsInSlash path = true → entry = .directory) := by
  rw [find, bind_eq_ok_iff]
  constructor
  · rintro ⟨q, hlocate, h⟩
    split at h
    · cases h
    · next hget =>
      split at h
      · cases h
      · next hslash =>
        cases h
        exact ⟨hlocate, hget, fun hends => absurd hends hslash⟩
    · next hget =>
      cases h
      exact ⟨hlocate, hget, fun _ => rfl⟩
  · rintro ⟨hlocate, hget, hslash⟩
    refine ⟨place, hlocate, ?_⟩
    rw [hget]
    cases entry with
    | directory => rfl
    | file mode content =>
      dsimp only
      rw [if_neg]
      exact fun hends => nomatch hslash hends

/-- What is found of a name in a directory is what stands there. -/
theorem find_join_iff {directory name : String} (hname : Path.IsName name) :
    d.find (Path.join directory name) = .ok (place, entry) ↔
      d.locate (Path.join directory name) = .ok place ∧ d.get? place = some entry := by
  rw [find_eq_ok_iff, hname.endsInSlash_join]
  simp

/-- A path is said to lead to something if something is found there. -/
theorem exists?_eq_true_iff : d.exists? path = .ok true ↔ ∃ result, d.find path = .ok result := by
  unfold exists?
  cases d.find path with
  | ok result => simp
  | error fault => cases fault <;> simp

/-- A path is said to lead to nothing if nothing is found there, for no other fault. -/
theorem exists?_eq_false_iff : d.exists? path = .ok false ↔ d.find path = .error .notFound := by
  unfold exists?
  cases d.find path with
  | ok result => simp
  | error fault => cases fault <;> simp

/-- Asking whether a path leads to something fails as looking it up does. -/
theorem exists?_of_error {fault : IoFault} (h : d.find path = .error fault) (hne : fault ≠ .notFound) :
    d.exists? path = .error fault := by
  unfold exists?
  rw [h]
  cases fault <;> simp_all

theorem exists?_congr (h : d'.find path = d.find path) : d'.exists? path = d.exists? path := by
  rw [exists?, exists?, h]

/-- The same is found of a name if it leads to the same place and this has the same entry, if any. -/
theorem find_join_congr {directory name : String} (hname : Path.IsName name)
    (hlocate : d'.locate (Path.join directory name) = d.locate (Path.join directory name))
    (hfind : ∀ result, d'.find (Path.join directory name) = .ok result ↔
      d.find (Path.join directory name) = .ok result) :
    d'.find (Path.join directory name) = d.find (Path.join directory name) := by
  cases hplace : d.locate (Path.join directory name) with
  | error fault =>
    rw [hplace] at hlocate
    simp only [find, hlocate, hplace, bind, Except.bind]
  | ok place =>
    rw [hplace] at hlocate
    have hget : d'.get? place = d.get? place := by
      refine Option.ext fun entry => ?_
      have hentry := hfind (place, entry)
      rw [find_join_iff hname, find_join_iff hname, hlocate, hplace] at hentry
      simpa using hentry
    simp only [find, hlocate, hplace, bind, Except.bind, hget]

theorem get?_erase (h : place ≠ []) :
    (d.erase place).get? other = if other = place then none else d.get? other := by
  unfold get? erase
  by_cases hroot : other = []
  · simp [hroot, Ne.symm h]
  · simp only [List.isEmpty_iff, hroot, if_false]
    exact Dictionary.get?_erase

theorem ne_root_of_not_directory (h : d.get? place ≠ some .directory) : place ≠ [] := by
  rintro rfl
  exact h rfl

/-! ## The same directories -/

/-- What components lead to depends on what is a directory. -/
theorem walk_of_directories {components : List String}
    (h : ∀ place, d.get? place = some .directory → d'.get? place = some .directory)
    (hwalk : d.walk place components = .ok goal) : d'.walk place components = .ok goal := by
  induction components generalizing place with
  | nil => exact hwalk
  | cons c components ih =>
    rw [walk] at hwalk ⊢
    split at hwalk
    · cases hwalk
    · cases hwalk
    · next hdirectory =>
      rw [h place hdirectory]
      split at hwalk
      · next hdots =>
        simp only [hdots, if_true]
        exact ih hwalk
      · next hdots =>
        split at hwalk
        · cases hwalk
        · next hlong =>
          simp only [hdots, hlong, if_false]
          exact ih hwalk

/-- A path leads where it led if no directory is gone. -/
theorem locate_of_directories (hcurrent : d'.current = d.current)
    (h : ∀ place, d.get? place = some .directory → d'.get? place = some .directory)
    (hlocate : d.locate path = .ok place) : d'.locate path = .ok place := by
  unfold locate at hlocate ⊢
  split at hlocate
  · cases hlocate
  · next hempty =>
    split at hlocate
    · cases hlocate
    · next hnul =>
      split at hlocate
      · cases hlocate
      · next hlong =>
        rw [if_neg hempty, if_neg hnul, if_neg hlong, hcurrent]
        exact walk_of_directories h hlocate

/-- Two disks have the same directories. -/
structure SameDirectories (d d' : Disk) : Prop where
  current : d'.current = d.current
  directory : ∀ place, d'.get? place = some .directory ↔ d.get? place = some .directory

namespace SameDirectories

theorem refl (d : Disk) : SameDirectories d d := ⟨rfl, fun _ => .rfl⟩

theorem symm (h : SameDirectories d d') : SameDirectories d' d :=
  ⟨h.current.symm, fun place => (h.directory place).symm⟩

theorem trans (h : SameDirectories d d') (h' : SameDirectories d' d'') : SameDirectories d d'' :=
  ⟨h'.current.trans h.current, fun place => (h'.directory place).trans (h.directory place)⟩

/-- Paths lead to the same places. -/
theorem locate (h : SameDirectories d d') (hlocate : d.locate path = .ok place) :
    d'.locate path = .ok place :=
  locate_of_directories h.current (fun place => (h.directory place).2) hlocate

/-- If one name in a directory leads to a place, all do as before. -/
theorem locate_join {directory name other : String} (h : SameDirectories d d')
    (hname : Path.IsName name) (hother : Path.IsName other)
    (hplace : d.locate (Path.join directory other) = .ok place) :
    d'.locate (Path.join directory name) = d.locate (Path.join directory name) := by
  -- both lead through the directory
  obtain ⟨base, ⟨hbase, hdirectory⟩, -⟩ := locate_join_cases hother hplace
  unfold Disk.locate
  rw [hname.components_join, hname.isAbsolute_join, walk_append, walk_append, h.current]
  have hlast : d'.walk base [name] = d.walk base [name] := by
    simp only [Disk.walk, hdirectory, (h.directory base).2 hdirectory]
  rw [walk_of_directories (fun place => (h.directory place).2) hbase, hbase]
  simp only [bind, Except.bind, hlast]

/-- A file may be put where no directory stands. -/
theorem put (h : d.get? place ≠ some .directory) :
    SameDirectories d (d.put place (.file mode content)) := by
  refine ⟨rfl, fun other => ?_⟩
  rw [get?_put (ne_root_of_not_directory h)]
  split
  · next heq =>
    rw [heq]
    simp [h]
  · exact .rfl

/-- What is no directory may be taken away. -/
theorem erase (h : d.get? place ≠ some .directory) : SameDirectories d (d.erase place) := by
  refine ⟨rfl, fun other => ?_⟩
  rw [get?_erase (ne_root_of_not_directory h)]
  split
  · next heq =>
    rw [heq]
    simp [h]
  · exact .rfl

/-- A name leads to what it led to, if this stays. -/
theorem find_join {directory name : String} (h : SameDirectories d d') (hname : Path.IsName name)
    (hkeep : ∀ place, d.locate (Path.join directory name) = .ok place → d'.get? place = d.get? place)
    {result : Place × Entry} :
    d'.find (Path.join directory name) = .ok result ↔ d.find (Path.join directory name) = .ok result := by
  obtain ⟨place, entry⟩ := result
  rw [find_join_iff hname, find_join_iff hname]
  constructor
  · rintro ⟨hlocate, hget⟩
    have hbefore := h.symm.locate hlocate
    exact ⟨hbefore, (hkeep place hbefore).symm.trans hget⟩
  · rintro ⟨hlocate, hget⟩
    exact ⟨h.locate hlocate, (hkeep place hlocate).trans hget⟩

end SameDirectories

/-! ## Operations -/

/-- What a write opens is no directory. -/
theorem opened_cases (h : d.opened path = .ok (place, mode)) :
    d.locate path = .ok place ∧ d.get? place ≠ some .directory := by
  rw [opened, bind_eq_ok_iff] at h
  obtain ⟨q, hlocate, h⟩ := h
  split at h
  · cases h
  · next hget =>
    split at h
    · cases h
    · cases h
      exact ⟨hlocate, by simp [hget]⟩
  · next hget =>
    split at h
    · cases h
    · cases h
      exact ⟨hlocate, by simp [hget]⟩

/-- Writing puts a file where the path leads. -/
theorem write_cases (h : d.write path content = .ok d') :
    ∃ place mode, d.locate path = .ok place ∧ SameDirectories d d' ∧
      ∀ other, d'.get? other = if other = place then some (.file mode content) else d.get? other := by
  rw [write, bind_eq_ok_iff] at h
  obtain ⟨⟨place, mode⟩, hopened, ⟨⟩⟩ := h
  obtain ⟨hlocate, hfree⟩ := opened_cases hopened
  exact ⟨place, mode, hlocate, .put hfree, fun _ => get?_put (ne_root_of_not_directory hfree)⟩

/-- Whether a file can be written under a name depends on the place to which it leads and on what is a
directory. -/
theorem SameDirectories.write_join {directory name : String} (h : SameDirectories d d')
    (hname : Path.IsName name)
    (hlocate : d'.locate (Path.join directory name) = d.locate (Path.join directory name)) :
    (d'.write (Path.join directory name) content).map (fun _ => ())
      = (d.write (Path.join directory name) content).map fun _ => () := by
  have hslash := @Path.IsName.endsInSlash_join directory name hname
  unfold write opened
  rw [hlocate]
  cases d.locate (Path.join directory name) with
  | error fault => rfl
  | ok place =>
    have hdirectory := h.directory place
    simp only [bind, Except.bind, hslash, Bool.false_eq_true, if_false]
    cases hget : d.get? place with
    | none => cases hget' : d'.get? place with
      | none => rfl
      | some entry => cases entry with
        | directory => simp [hget, hget'] at hdirectory
        | file mode content => rfl
    | some entry => cases entry with
      | directory => rw [hdirectory.2 hget]
      | file mode content => cases hget' : d'.get? place with
        | none => rfl
        | some entry => cases entry with
          | directory => simp [hget, hget'] at hdirectory
          | file mode content => rfl

/-- Setting permissions keeps the content of a file. -/
theorem setMode_cases (h : d.setMode path mode = .ok d') :
    ∃ place entry, d.find path = .ok (place, entry) ∧ SameDirectories d d' ∧
      (∀ other, other ≠ place → d'.get? other = d.get? other) ∧
      ∀ old content, entry = .file old content → d'.get? place = some (.file mode content) := by
  rw [setMode, bind_eq_ok_iff] at h
  obtain ⟨⟨place, entry⟩, hfind, h⟩ := h
  refine ⟨place, entry, hfind, ?_⟩
  cases entry with
  | directory =>
    cases h
    exact ⟨.refl d, fun _ _ => rfl, nofun⟩
  | file old content =>
    cases h
    obtain ⟨-, hget, -⟩ := find_eq_ok_iff.1 hfind
    have hfree : d.get? place ≠ some .directory := by simp [hget]
    have hput := fun other => @get?_put d place other (.file mode content)
      (ne_root_of_not_directory hfree)
    refine ⟨.put hfree, ?_, ?_⟩
    · intro other hother
      rw [hput, if_neg hother]
    · rintro _ _ ⟨⟩
      rw [hput, if_pos rfl]

/-- The permissions of a file that is there can be set. -/
theorem setMode_of_find (h : d.find path = .ok (place, .file mode content)) (newMode : Nat) :
    d.setMode path newMode = .ok (d.put place (.file newMode content)) := by
  rw [setMode, h]
  rfl

/-- A file that is there can be renamed to a name that leads to no directory. -/
theorem rename_of_find {directory name : String} (hname : Path.IsName name)
    (h : d.find source = .ok (place, .file mode content))
    (hgoal : d.locate (Path.join directory name) = .ok goal) (hfree : d.get? goal ≠ some .directory) :
    ∃ d', d.rename source (Path.join directory name) = .ok d' := by
  refine ⟨(d.erase place).put goal (.file mode content), ?_⟩
  have hslash := @Path.IsName.endsInSlash_join directory name hname
  rw [rename, h]
  simp only [bind, Except.bind, hgoal, hslash, Bool.false_eq_true, if_false]
  rfl

/-- A file that is renamed stands at its new place and no longer at its old one. -/
theorem rename_cases (h : d.rename source target = .ok d')
    (hfile : d.find source = .ok (place, .file mode content)) :
    ∃ goal, d.locate target = .ok goal ∧ SameDirectories d d' ∧
      ∀ other, d'.get? other = if other = goal then some (.file mode content)
        else if other = place then none else d.get? other := by
  rw [rename, bind_eq_ok_iff] at h
  obtain ⟨found, hfound, h⟩ := h
  obtain rfl : (place, .file mode content) = found := by rwa [hfile, Except.ok.injEq] at hfound
  obtain ⟨goal, hgoal, h⟩ := bind_eq_ok_iff.1 h
  have hplaced : d.get? goal ≠ some .directory ∧
      d' = (d.erase place).put goal (.file mode content) := by
    split at h
    · cases h
    · next hfree =>
      split at h
      · cases h
      · cases h
        exact ⟨hfree, rfl⟩
  obtain ⟨hfree, rfl⟩ := hplaced
  obtain ⟨-, hget, -⟩ := find_eq_ok_iff.1 hfile
  have hplace : d.get? place ≠ some .directory := by simp [hget]
  have herase := SameDirectories.erase hplace
  refine ⟨goal, hgoal, herase.trans (.put fun h => hfree ((herase.directory goal).1 h)), ?_⟩
  intro other
  rw [get?_put (ne_root_of_not_directory hfree), get?_erase (ne_root_of_not_directory hplace)]

end Provenance.Disk
