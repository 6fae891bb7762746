import Provenance.Cache.Basic
import Provenance.Proofs.Disk.Likeness

/-!
# Names in the cache's directory

A safe version names a file, and so does what is written for it. These are different names for all
versions, so that what is done for one version touches no place of another (`Touches`).
-/

namespace Provenance

namespace Version

variable {version other : String}

theorem isSafe_iff : isSafe version.toList = true ↔
    version.toList ≠ [] ∧ version.toList.head? ≠ some '.' ∧ hasTwoDots version.toList = false ∧
      '/' ∉ version.toList ∧ '\\' ∉ version.toList := by
  simp only [isSafe, Bool.and_eq_true, Bool.not_eq_true', List.isEmpty_eq_false_iff, ne_eq,
    decide_not, decide_eq_false_iff_not, List.all_eq_true]
  grind

/-- A safe version is a name. -/
theorem isName (h : isSafe version.toList = true) : Path.IsName version := by
  obtain ⟨hempty, hdot, -, hslash, -⟩ := isSafe_iff.1 h
  refine ⟨?_, ?_, ?_, hslash⟩
  · rintro rfl
    exact hempty rfl
  · rintro rfl
    exact hdot rfl
  · rintro rfl
    exact hdot rfl

theorem toList_partialName :
    (Path.partialName version).toList = '.' :: version.toList ++ ".partial".toList := by
  simp [Path.partialName]

/-- What is written for a safe version has a name. -/
theorem isName_partialName (h : isSafe version.toList = true) :
    Path.IsName (Path.partialName version) := by
  obtain ⟨-, -, -, hslash, -⟩ := isSafe_iff.1 h
  have hlength : 8 < (Path.partialName version).toList.length := by
    rw [toList_partialName]
    simp
  refine ⟨?_, ?_, ?_, ?_⟩
  · intro heq
    simp [heq] at hlength
  · intro heq
    simp [heq] at hlength
  · intro heq
    simp [heq] at hlength
  · rw [toList_partialName]
    simpa using hslash

theorem partialName_inj (h : Path.partialName version = Path.partialName other) :
    version = other := by
  have hlist := congrArg String.toList h
  rw [toList_partialName, toList_partialName, List.append_cancel_right_eq, List.cons.injEq] at hlist
  exact String.toList_inj.1 hlist.2

/-- Nothing is written under the name of a safe version. -/
theorem ne_partialName (h : isSafe version.toList = true) : version ≠ Path.partialName other := by
  intro heq
  obtain ⟨-, hdot, -⟩ := isSafe_iff.1 h
  rw [heq, toList_partialName] at hdot
  exact hdot rfl

end Version

namespace Cache

variable {c : Cache} {version other : String} {d d' e : Disk} {content : Bytes} {mode : Nat}
  {place : Place} {result : Place × Entry}

/-- Versions have different paths. -/
theorem locate_path_ne (hsafe : Version.isSafe version.toList = true)
    (hother : Version.isSafe other.toList = true) (hne : other ≠ version)
    (h : d.locate (c.path version) = .ok place) : d.locate (c.path other) ≠ .ok place :=
  fun h' => hne (Disk.locate_join_inj (Version.isName hother) (Version.isName hsafe) h' h)

/-- What is written for versions has different paths. -/
theorem locate_partialPath_ne (hsafe : Version.isSafe version.toList = true)
    (hother : Version.isSafe other.toList = true) (hne : other ≠ version)
    (h : d.locate (c.partialPath version) = .ok place) : d.locate (c.partialPath other) ≠ .ok place :=
  fun h' => hne (Version.partialName_inj (Disk.locate_join_inj (Version.isName_partialName hother)
    (Version.isName_partialName hsafe) h' h))

/-- What is written for a version has another path than any version. -/
theorem locate_path_ne_partialPath (hsafe : Version.isSafe version.toList = true)
    (hother : Version.isSafe other.toList = true)
    (h : d.locate (c.partialPath version) = .ok place) : d.locate (c.path other) ≠ .ok place :=
  fun h' => Version.ne_partialName hother (Disk.locate_join_inj (Version.isName hother)
    (Version.isName_partialName hsafe) h' h)

/-! ## Places of a version -/

/-- A place at which something of a version stands. Only a name that is in order has such places. -/
def IsPlace (c : Cache) (version : String) (d : Disk) (place : Place) : Prop :=
  Version.isSafe version.toList = true ∧
    (d.locate (c.path version) = .ok place ∨ d.locate (c.partialPath version) = .ok place)

/-- A place belongs to one version. -/
theorem IsPlace.unique (h : c.IsPlace version d place) (h' : c.IsPlace other d place) :
    version = other := by
  obtain ⟨hsafe, hplace⟩ := h
  obtain ⟨hother, hplace'⟩ := h'
  refine Decidable.byContradiction fun hne => ?_
  rcases hplace with hplace | hplace
  · rcases hplace' with hplace' | hplace'
    · exact locate_path_ne hother hsafe hne hplace' hplace
    · exact locate_path_ne_partialPath hother hsafe hplace' hplace
  · rcases hplace' with hplace' | hplace'
    · exact locate_path_ne_partialPath hsafe hother hplace hplace'
    · exact locate_partialPath_ne hother hsafe hne hplace' hplace

/-- Names in the cache's directory lead to the same places on two disks. -/
def SameNames (c : Cache) (d e : Disk) : Prop :=
  ∀ name, Path.IsName name →
    e.locate (Path.join c.directory name) = d.locate (Path.join c.directory name)

theorem SameNames.trans (h : c.SameNames d d') (h' : c.SameNames d' e) : c.SameNames d e :=
  fun name hname => (h' name hname).trans (h name hname)

theorem SameNames.symm (h : c.SameNames d e) : c.SameNames e d :=
  fun name hname => (h name hname).symm

theorem SameNames.isPlace_iff (h : c.SameNames d e) :
    c.IsPlace version e place ↔ c.IsPlace version d place := by
  refine and_congr_right fun hsafe => ?_
  rw [path, partialPath, h _ (Version.isName hsafe), h _ (Version.isName_partialName hsafe)]

/-- Two disks show the same of a version. -/
structure SameFiles (c : Cache) (version : String) (d e : Disk) : Prop where
  names : c.SameNames d e
  get? : ∀ place, c.IsPlace version d place → e.get? place = d.get? place

namespace SameFiles

theorem trans (h : c.SameFiles version d d') (h' : c.SameFiles version d' e) :
    c.SameFiles version d e where
  names := h.names.trans h'.names
  get? place hplace := (h'.get? place (h.names.isPlace_iff.2 hplace)).trans (h.get? place hplace)

theorem symm (h : c.SameFiles version d e) : c.SameFiles version e d where
  names := h.names.symm
  get? place hplace := (h.get? place (h.names.isPlace_iff.1 hplace)).symm

theorem sameAt_path (h : c.SameFiles version d e) (hsafe : Version.isSafe version.toList = true) :
    Disk.SameAt (c.path version) d e :=
  ⟨h.names _ (Version.isName hsafe), fun place hplace => h.get? place ⟨hsafe, .inl hplace⟩⟩

theorem sameAt_partialPath (h : c.SameFiles version d e)
    (hsafe : Version.isSafe version.toList = true) : Disk.SameAt (c.partialPath version) d e :=
  ⟨h.names _ (Version.isName_partialName hsafe), fun place hplace => h.get? place ⟨hsafe, .inr hplace⟩⟩

end SameFiles

/-! ## What is done for a version -/

/-- What is done for a version keeps all directories and changes nothing but what stands at its places. -/
structure Touches (c : Cache) (version : String) (d d' : Disk) : Prop where
  directories : d.SameDirectories d'
  names : c.SameNames d d'
  get? : ∀ place, ¬c.IsPlace version d place → d'.get? place = d.get? place

namespace Touches

theorem refl (c : Cache) (version : String) (d : Disk) : c.Touches version d d :=
  ⟨.refl d, fun _ _ => rfl, fun _ _ => rfl⟩

theorem trans (h : c.Touches version d d') (h' : c.Touches version d' e) : c.Touches version d e where
  directories := h.directories.trans h'.directories
  names := h.names.trans h'.names
  get? place hplace := (h'.get? place (mt h.names.isPlace_iff.1 hplace)).trans (h.get? place hplace)

/-- Other versions' files stay. -/
theorem sameFiles (h : c.Touches other d d') (hne : version ≠ other) : c.SameFiles version d d' :=
  ⟨h.names, fun place hplace => h.get? place fun hother => hne (hplace.unique hother)⟩

/-- The same is found of other versions. -/
theorem find_path (h : c.Touches version d d') (hother : Version.isSafe other.toList = true)
    (hne : other ≠ version) : d'.find (c.path other) = d.find (c.path other) :=
  ((h.sameFiles hne).sameAt_path hother).find

theorem find_partialPath (h : c.Touches version d d') (hother : Version.isSafe other.toList = true)
    (hne : other ≠ version) : d'.find (c.partialPath other) = d.find (c.partialPath other) :=
  ((h.sameFiles hne).sameAt_partialPath hother).find

/-- What changes the places of a version and no directory touches nothing else. -/
theorem of_sameDirectories (hsafe : Version.isSafe version.toList = true)
    (hplace : d.locate (c.partialPath version) = .ok place) (hsame : d.SameDirectories d')
    (hget : ∀ q, ¬c.IsPlace version d q → d'.get? q = d.get? q) : c.Touches version d d' :=
  ⟨hsame, fun _ hname => hsame.locate_join hname (Version.isName_partialName hsafe) hplace, hget⟩

/-- What changes only the file that is written for a version touches no version's file. -/
theorem of_partialPath (hsafe : Version.isSafe version.toList = true)
    (hplace : d.locate (c.partialPath version) = .ok place) (hsame : d.SameDirectories d')
    (hget : ∀ q, q ≠ place → d'.get? q = d.get? q) :
    c.Touches version d d' ∧ ∀ other, Version.isSafe other.toList = true → ∀ result,
      d'.find (c.path other) = .ok result ↔ d.find (c.path other) = .ok result := by
  refine ⟨of_sameDirectories hsafe hplace hsame fun q hq => hget q ?_, fun other hother result => ?_⟩
  · rintro rfl
    exact hq ⟨hsafe, .inr hplace⟩
  · refine hsame.find_join (Version.isName hother) fun q hq => hget q ?_
    rintro rfl
    exact locate_path_ne_partialPath hsafe hother hplace hq

theorem of_write (hsafe : Version.isSafe version.toList = true)
    (h : d.write (c.partialPath version) content = .ok d') : c.Touches version d d' := by
  obtain ⟨place, mode, hplace, hsame, hget⟩ := Disk.write_cases h
  exact (of_partialPath hsafe hplace hsame fun q hq => by rw [hget, if_neg hq]).1

theorem of_setMode (hsafe : Version.isSafe version.toList = true)
    (h : d.setMode (c.partialPath version) mode = .ok d') : c.Touches version d d' := by
  obtain ⟨place, entry, hfind, hsame, hget, -⟩ := Disk.setMode_cases h
  obtain ⟨hplace, -, -⟩ := Disk.find_eq_ok_iff.1 hfind
  exact (of_partialPath hsafe hplace hsame hget).1

theorem of_rename (hsafe : Version.isSafe version.toList = true)
    (h : d.rename (c.partialPath version) (c.path version) = .ok d')
    (hfile : d.find (c.partialPath version) = .ok (place, .file mode content)) :
    c.Touches version d d' := by
  obtain ⟨goal, hgoal, hsame, hget⟩ := Disk.rename_cases h hfile
  obtain ⟨hplace, -, -⟩ := Disk.find_eq_ok_iff.1 hfile
  refine of_sameDirectories hsafe hplace hsame fun q hq => ?_
  rw [hget, if_neg, if_neg]
  · rintro rfl
    exact hq ⟨hsafe, .inr hplace⟩
  · rintro rfl
    exact hq ⟨hsafe, .inl hgoal⟩

end Touches

/-- Writing for a version leaves a file with the content. -/
theorem write_partialPath (hsafe : Version.isSafe version.toList = true)
    (h : d.write (c.partialPath version) content = .ok d') :
    c.Touches version d d' ∧
      (∀ other, Version.isSafe other.toList = true → ∀ result,
        d'.find (c.path other) = .ok result ↔ d.find (c.path other) = .ok result) ∧
      ∃ place mode, d'.find (c.partialPath version) = .ok (place, .file mode content) := by
  obtain ⟨place, mode, hplace, hsame, hget⟩ := Disk.write_cases h
  obtain ⟨htouches, hpath⟩ := Touches.of_partialPath hsafe hplace hsame fun q hq => by
    rw [hget, if_neg hq]
  refine ⟨htouches, hpath, place, mode, ?_⟩
  exact (Disk.find_join_iff (Version.isName_partialName hsafe)).2
    ⟨hsame.locate hplace, by rw [hget, if_pos rfl]⟩

/-- Marking what was written for a version keeps its content. -/
theorem setMode_partialPath (hsafe : Version.isSafe version.toList = true)
    (h : d.setMode (c.partialPath version) mode = .ok d') :
    c.Touches version d d' ∧
      (∀ other, Version.isSafe other.toList = true → ∀ result,
        d'.find (c.path other) = .ok result ↔ d.find (c.path other) = .ok result) ∧
      ∀ place old content, d.find (c.partialPath version) = .ok (place, .file old content) →
        d'.find (c.partialPath version) = .ok (place, .file mode content) := by
  obtain ⟨place, entry, hfind, hsame, hget, hfile⟩ := Disk.setMode_cases h
  obtain ⟨hplace, -, -⟩ := Disk.find_eq_ok_iff.1 hfind
  obtain ⟨htouches, hpath⟩ := Touches.of_partialPath hsafe hplace hsame hget
  refine ⟨htouches, hpath, ?_⟩
  intro place old content hold
  rw [hfind, Except.ok.injEq, Prod.mk.injEq] at hold
  obtain ⟨rfl, rfl⟩ := hold
  exact (Disk.find_join_iff (Version.isName_partialName hsafe)).2
    ⟨hsame.locate hplace, hfile old content rfl⟩

/-- Renaming what was written for a version puts it under the version's name. -/
theorem rename_partialPath (hsafe : Version.isSafe version.toList = true)
    (h : d.rename (c.partialPath version) (c.path version) = .ok d')
    (hfile : d.find (c.partialPath version) = .ok (place, .file mode content)) :
    c.Touches version d d' ∧
      ∃ place, d'.find (c.path version) = .ok (place, .file mode content) := by
  obtain ⟨goal, hgoal, hsame, hget⟩ := Disk.rename_cases h hfile
  refine ⟨.of_rename hsafe h hfile, goal, ?_⟩
  exact (Disk.find_join_iff (Version.isName hsafe)).2
    ⟨hsame.locate hgoal, by rw [hget, if_pos rfl]⟩

end Cache

end Provenance
