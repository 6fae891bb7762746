import Provenance.Proofs.Cache.Names
import Provenance.Proofs.Disk.Directories
import Provenance.Proofs.Passive
import Provenance.Release.Install

/-!
# Programs that are put in place

A program is written under a temporary name and renamed when it is whole. So either it stands under its name
in the end, and the temporary name is free (`Disk.Puts`), or whatever went wrong left at most a temporary file
(`Disk.Spoils`).
-/

namespace Provenance

variable {ν ε α β : Type} {o : Outside ν} {w w' : World ν}

/-! ## Operations on files -/

namespace Session

/-- An operation on files may meet with a mishap, and comes to what it makes of the disk. -/
theorem act_cases {operation : Option Mishap → Disk → Except IoFault Unit × Disk} {result}
    (h : act operation o w = (result, w')) :
    ∃ mishap, operation mishap w.disk = (result, w'.disk) := by
  have hnext : ∃ mishap mishaps,
      (nextMishap : Session ν IoFault _) o w = (.ok mishap, { w with mishaps }) := by
    unfold nextMishap
    split
    · exact ⟨none, w.mishaps, rfl⟩
    · exact ⟨_, _, rfl⟩
  obtain ⟨mishap, mishaps, hnext⟩ := hnext
  refine ⟨mishap, ?_⟩
  have happly : act operation o w
      = ((operation mishap w.disk).1, { w with mishaps, disk := (operation mishap w.disk).2 }) := by
    rw [act, bind_of_ok hnext]
    rfl
  rw [happly] at h
  cases h
  rfl

theorem change_of_ok {operation : Disk → Except IoFault Disk}
    (h : change operation o w = (.ok (), w')) : operation w.disk = .ok w'.disk := by
  obtain ⟨mishap, hchange⟩ := act_cases h
  unfold Disk.changing Disk.asking at hchange
  cases mishap with
  | some mishap => cases hchange
  | none =>
    dsimp only at hchange
    split at hchange
    · next d hoperation =>
      rw [hoperation, (Prod.mk.inj hchange).2]
    · cases hchange

/-- What fails to change the disk leaves it. -/
theorem change_of_error {operation : Disk → Except IoFault Disk} {fault : IoFault}
    (h : change operation o w = (.error fault, w')) : w'.disk = w.disk := by
  obtain ⟨mishap, hchange⟩ := act_cases h
  unfold Disk.changing at hchange
  split at hchange
  · cases hchange
  · exact (Prod.mk.inj hchange).2.symm

theorem write_of_ok {path : String} {content : Bytes} (h : write path content o w = (.ok (), w')) :
    w.disk.write path content = .ok w'.disk := by
  obtain ⟨mishap, hwrite⟩ := act_cases h
  unfold Disk.writing Disk.changing Disk.asking at hwrite
  cases mishap with
  | none =>
    dsimp only at hwrite
    split at hwrite
    · next d hoperation => rw [hoperation, (Prod.mk.inj hwrite).2]
    · cases hwrite
  | some mishap =>
    dsimp only at hwrite
    split at hwrite
    · cases hwrite
    · split at hwrite <;> cases hwrite

/-- What fails to be written may be there in part. -/
theorem write_of_error {path : String} {content : Bytes} {fault : IoFault}
    (h : write path content o w = (.error fault, w')) :
    w'.disk = w.disk ∨ ∃ part, w.disk.write path part = .ok w'.disk := by
  obtain ⟨mishap, hwrite⟩ := act_cases h
  unfold Disk.writing at hwrite
  cases mishap with
  | none =>
    dsimp only at hwrite
    unfold Disk.changing at hwrite
    split at hwrite
    · cases hwrite
    · exact .inl (Prod.mk.inj hwrite).2.symm
  | some mishap =>
    dsimp only at hwrite
    split at hwrite
    · exact .inl (Prod.mk.inj hwrite).2.symm
    · next n _ =>
      unfold Disk.changing Disk.asking at hwrite
      dsimp only at hwrite
      cases hpart : w.disk.write path (content.take n) with
      | ok d =>
        rw [hpart] at hwrite
        exact .inr ⟨_, hpart.trans (congrArg _ (Prod.mk.inj hwrite).2)⟩
      | error fault =>
        rw [hpart] at hwrite
        exact .inl (Prod.mk.inj hwrite).2.symm

end Session

/-! ## Writing a program -/

namespace Disk

variable {directory name other : String} {binary : Bytes} {d d' d'' : Disk} {place : Place}

/-- A program was put in a directory under a name, and no temporary file is left. -/
structure Puts (directory name : String) (binary : Bytes) (d d' : Disk) : Prop where
  directories : d.SameDirectories d'
  placed : ∃ temporary goal, d.locate (Path.join directory (Path.partialName name)) = .ok temporary ∧
    d.locate (Path.join directory name) = .ok goal ∧
    ∀ place, d'.get? place = if place = goal then some (.file programMode binary)
      else if place = temporary then none else d.get? place

/-- Nothing was changed but the temporary file of a name. -/
structure Spoils (directory name : String) (d d' : Disk) : Prop where
  directories : d.SameDirectories d'
  kept : ∀ place, d.locate (Path.join directory (Path.partialName name)) ≠ .ok place →
    d'.get? place = d.get? place

namespace Spoils

theorem refl (d : Disk) : Spoils directory name d d := ⟨.refl d, fun _ _ => rfl⟩

theorem trans (h : Spoils directory name d d') (h' : Spoils directory name d' d'') :
    Spoils directory name d d'' where
  directories := h.directories.trans h'.directories
  kept place hplace :=
    (h'.kept place fun hlocate => hplace (h.directories.symm.locate hlocate)).trans (h.kept place hplace)

theorem of_write {part : Bytes} (h : d.write (Path.join directory (Path.partialName name)) part = .ok d') :
    Spoils directory name d d' := by
  obtain ⟨place, mode, hplace, hsame, hget⟩ := write_cases h
  refine ⟨hsame, fun other hother => ?_⟩
  rw [hget, if_neg]
  rintro rfl
  exact hother hplace

theorem of_setMode {mode : Nat}
    (h : d.setMode (Path.join directory (Path.partialName name)) mode = .ok d') :
    Spoils directory name d d' := by
  obtain ⟨place, entry, hfind, hsame, hget, -⟩ := setMode_cases h
  refine ⟨hsame, fun other hother => hget other ?_⟩
  rintro rfl
  exact hother (find_eq_ok_iff.1 hfind).1

end Spoils

/-- What is written, marked as a program and renamed is put in place. -/
theorem puts_of_rename {d₁ d₂ d₃ : Disk} (hname : Path.IsName (Path.partialName name))
    (hwrite : d.write (Path.join directory (Path.partialName name)) binary = .ok d₁)
    (hmark : d₁.setMode (Path.join directory (Path.partialName name)) programMode = .ok d₂)
    (hrename : d₂.rename (Path.join directory (Path.partialName name)) (Path.join directory name) = .ok d₃) :
    Puts directory name binary d d₃ := by
  obtain ⟨temporary, mode, htemporary, hsame, hget⟩ := write_cases hwrite
  have hfind : d₁.find (Path.join directory (Path.partialName name))
      = .ok (temporary, .file mode binary) :=
    (find_join_iff hname).2 ⟨hsame.locate htemporary, by rw [hget, if_pos rfl]⟩
  obtain ⟨place, entry, hfind₁, hsame₁, hget₁, hmarked⟩ := setMode_cases hmark
  obtain ⟨rfl, rfl⟩ := Prod.mk.inj (Except.ok.inj (hfind.symm.trans hfind₁))
  have hfind₂ : d₂.find (Path.join directory (Path.partialName name))
      = .ok (temporary, .file programMode binary) :=
    (find_join_iff hname).2
      ⟨hsame₁.locate (hsame.locate htemporary), hmarked mode binary rfl⟩
  obtain ⟨goal, hgoal, hsame₂, hget₂⟩ := rename_cases hrename hfind₂
  refine ⟨(hsame.trans hsame₁).trans hsame₂, temporary, goal, htemporary,
    (hsame.trans hsame₁).symm.locate hgoal, fun q => ?_⟩
  rw [hget₂]
  split
  · rfl
  · split
    · rfl
    · next hq => rw [hget₁ q hq, hget, if_neg hq]

/-- The places that a name leads to, and from which it is renamed, are all that is changed. -/
theorem Puts.kept (h : Puts directory name binary d d')
    (hplace : d'.locate (Path.join directory name) ≠ .ok place)
    (htemporary : d'.locate (Path.join directory (Path.partialName name)) ≠ .ok place) :
    d'.get? place = d.get? place := by
  obtain ⟨temporary, goal, hlocate, hgoal, hget⟩ := h.placed
  rw [hget, if_neg, if_neg]
  · rintro rfl
    exact htemporary (h.directories.locate hlocate)
  · rintro rfl
    exact hplace (h.directories.locate hgoal)

/-- Different versions lead to different places. -/
theorem locate_version_ne (hversion : Version.isSafe name.toList = true)
    (hother : Version.isSafe other.toList = true) (hne : name ≠ other)
    (hplace : d.locate (Path.join directory name) = .ok place) :
    d.locate (Path.join directory other) ≠ .ok place :=
  fun h => hne (locate_join_inj (Version.isName hversion) (Version.isName hother) hplace h)

/-- No version leads to a temporary file. -/
theorem locate_temporary_ne (hversion : Version.isSafe name.toList = true)
    (hother : Version.isSafe other.toList = true)
    (hplace : d.locate (Path.join directory name) = .ok place) :
    d.locate (Path.join directory (Path.partialName other)) ≠ .ok place :=
  fun h => Version.ne_partialName hversion
    (locate_join_inj (Version.isName hversion) (Version.isName_partialName hother) hplace h)

/-! ## One after the other -/

/-- How a disk goes on while a program is put in place under some names: which of them were replaced by then,
the first first. -/
inductive Writes (directory : String) (names : List String) (binary : Bytes) :
    List String → Disk → Disk → Prop
  | grow {d d' : Disk} (grows : Grows d d') : Writes directory names binary [] d d'
  | put {replaced : List String} {d d' d'' : Disk} {name : String} (mem : name ∈ names)
    (before : Writes directory names binary replaced d d') (puts : Puts directory name binary d' d'') :
    Writes directory names binary (replaced ++ [name]) d d''
  | spoil {replaced : List String} {d d' d'' : Disk} {name : String} (mem : name ∈ names)
    (before : Writes directory names binary replaced d d') (spoils : Spoils directory name d' d'') :
    Writes directory names binary replaced d d''

namespace Writes

variable {names replaced : List String} {path : String}

/-- What led somewhere leads there still. -/
theorem locate (h : Writes directory names binary replaced d d') (hlocate : d.locate path = .ok place) :
    d'.locate path = .ok place := by
  induction h with
  | grow grows => exact grows.locate hlocate
  | put _ _ puts ih => exact puts.directories.locate (ih hlocate)
  | spoil _ _ spoils ih => exact spoils.directories.locate (ih hlocate)

/-- A file that was changed is that of one of the names, or a temporary one. -/
theorem exists_of_changed (h : Writes directory names binary replaced d d')
    (hchanged : d'.contentAt place ≠ d.contentAt place) :
    ∃ name ∈ names, d'.locate (Path.join directory name) = .ok place ∨
      d'.locate (Path.join directory (Path.partialName name)) = .ok place := by
  refine Classical.byContradiction fun hnone => hchanged ?_
  clear hchanged
  induction h with
  | grow grows => exact grows.contentAt place
  | @put _ _ _ _ name mem _ puts ih =>
    have hkept := puts.kept (fun h => hnone ⟨name, mem, .inl h⟩) fun h => hnone ⟨name, mem, .inr h⟩
    refine (contentAt_congr hkept).trans (ih ?_)
    rintro ⟨other, hmem, hlocate⟩
    exact hnone ⟨other, hmem, hlocate.imp puts.directories.locate puts.directories.locate⟩
  | @spoil _ _ _ _ name mem _ spoils ih =>
    have hkept := spoils.kept place fun h => hnone ⟨name, mem, .inr (spoils.directories.locate h)⟩
    refine (contentAt_congr hkept).trans (ih ?_)
    rintro ⟨other, hmem, hlocate⟩
    exact hnone ⟨other, hmem, hlocate.imp spoils.directories.locate spoils.directories.locate⟩

section
variable (hsafe : ∀ name ∈ names, Version.isSafe name.toList = true)
include hsafe

/-- A name that was replaced leads to the whole program. -/
theorem find_of_mem (h : Writes directory names binary replaced d d') (hmem : name ∈ replaced) :
    name ∈ names ∧ ∃ place, d'.find (Path.join directory name) = .ok (place, .file programMode binary) := by
  induction h with
  | grow => cases hmem
  | @put replaced d d' d'' other mem _ puts ih =>
    have hother := hsafe other mem
    by_cases heq : name = other
    · subst heq
      obtain ⟨temporary, goal, -, hgoal, hget⟩ := puts.placed
      refine ⟨mem, goal, (find_join_iff (Version.isName hother)).2 ⟨puts.directories.locate hgoal, ?_⟩⟩
      rw [hget, if_pos rfl]
    · have hmem : name ∈ replaced := by simpa [heq] using hmem
      obtain ⟨hname, place, hfind⟩ := ih hmem
      have hversion := hsafe name hname
      obtain ⟨hlocate, hfile⟩ := (find_join_iff (Version.isName hversion)).1 hfind
      have hstays := puts.directories.locate hlocate
      refine ⟨hname, place, (find_join_iff (Version.isName hversion)).2 ⟨hstays, ?_⟩⟩
      rw [puts.kept (locate_version_ne hversion hother heq hstays)
        (locate_temporary_ne hversion hother hstays), hfile]
  | @spoil replaced d d' d'' other mem _ spoils ih =>
    obtain ⟨hname, place, hfind⟩ := ih hmem
    have hversion := hsafe name hname
    obtain ⟨hlocate, hfile⟩ := (find_join_iff (Version.isName hversion)).1 hfind
    refine ⟨hname, place, (find_join_iff (Version.isName hversion)).2
      ⟨spoils.directories.locate hlocate, ?_⟩⟩
    rw [spoils.kept place (locate_temporary_ne hversion (hsafe other mem) hlocate), hfile]

/-- Any other version holds what it held. -/
theorem contentAt_of_not_mem (h : Writes directory names binary replaced d d')
    (hversion : Version.isSafe name.toList = true) (hmem : name ∉ replaced)
    (hplace : d'.locate (Path.join directory name) = .ok place) :
    d'.contentAt place = d.contentAt place := by
  induction h with
  | grow grows => exact grows.contentAt place
  | @put replaced d d' d'' other mem _ puts ih =>
    rw [List.mem_append, List.mem_singleton, not_or] at hmem
    have hother := hsafe other mem
    have hkept := puts.kept (locate_version_ne hversion hother hmem.2 hplace)
      (locate_temporary_ne hversion hother hplace)
    exact (contentAt_congr hkept).trans (ih hmem.1 (puts.directories.symm.locate hplace))
  | @spoil replaced d d' d'' other mem _ spoils ih =>
    have hbefore := spoils.directories.symm.locate hplace
    have hkept := spoils.kept place (locate_temporary_ne hversion (hsafe other mem) hbefore)
    exact (contentAt_congr hkept).trans (ih hmem hbefore)

/-- Any other version that could be read is still read so. -/
theorem read_of_not_mem (h : Writes directory names binary replaced d d')
    (hversion : Version.isSafe name.toList = true) (hmem : name ∉ replaced) {content : Bytes}
    (hread : d.read (Path.join directory name) = .ok content) :
    d'.read (Path.join directory name) = .ok content := by
  obtain ⟨place, hlocate, hcontent⟩ := (read_join_eq_ok_iff (Version.isName hversion)).1 hread
  have hplace := h.locate hlocate
  exact (read_join_eq_ok_iff (Version.isName hversion)).2
    ⟨place, hplace, (h.contentAt_of_not_mem hsafe hversion hmem hplace).trans hcontent⟩

end

end Writes

end Disk

namespace Release

variable {directory name : String} {binary : Bytes} {e : SetupError}

/-- A program that was written is in its place. -/
theorem puts_of_writeProgram (hname : Path.IsName (Path.partialName name))
    (h : writeProgram directory name binary o w = (.ok (), w')) :
    Disk.Puts directory name binary w.disk w'.disk := by
  obtain ⟨_, w₁, hwrite, h⟩ := Session.bind_eq_ok_iff.1 h
  obtain ⟨_, w₂, hmark, hrename⟩ := Session.bind_eq_ok_iff.1 h
  exact Disk.puts_of_rename hname (Session.write_of_ok (Session.mapError_apply_eq_ok_iff.1 hwrite))
    (Session.change_of_ok (Session.mapError_apply_eq_ok_iff.1 hmark))
    (Session.change_of_ok (Session.mapError_apply_eq_ok_iff.1 hrename))

/-- A program that could not be written has left at most a temporary file. -/
theorem spoils_of_writeProgram (h : writeProgram directory name binary o w = (.error e, w')) :
    Disk.Spoils directory name w.disk w'.disk := by
  rcases Session.bind_eq_error_iff.1 h with hwrite | ⟨_, w₁, hwrite, h⟩
  · obtain ⟨fault, hwrite, -⟩ := Session.mapError_apply_eq_error_iff.1 hwrite
    rcases Session.write_of_error hwrite with hsame | ⟨part, hpart⟩
    · rw [hsame]
      exact .refl _
    · exact .of_write hpart
  · have hwritten := Disk.Spoils.of_write (Session.write_of_ok (Session.mapError_apply_eq_ok_iff.1 hwrite))
    refine hwritten.trans ?_
    rcases Session.bind_eq_error_iff.1 h with hmark | ⟨_, w₂, hmark, hrename⟩
    · obtain ⟨fault, hmark, -⟩ := Session.mapError_apply_eq_error_iff.1 hmark
      rw [Session.change_of_error hmark]
      exact .refl _
    · have hmarked := Disk.Spoils.of_setMode (Session.change_of_ok (Session.mapError_apply_eq_ok_iff.1 hmark))
      obtain ⟨fault, hrename, -⟩ := Session.mapError_apply_eq_error_iff.1 hrename
      rw [Session.change_of_error hrename]
      exact hmarked

end Release

end Provenance
