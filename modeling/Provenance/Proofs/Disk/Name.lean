import Provenance.Disk
import Provenance.Proofs.Except

/-!
# Names in a directory

A path made of a directory and a plain name leads to what has this name there. So different names lead to
different places.
-/

namespace Provenance

namespace Text

/-- The parts of two texts with a separator between them are the parts of both. -/
theorem splitOn_append_cons (separator : Char) (xs ys : List Char) :
    splitOn separator (xs ++ separator :: ys) = splitOn separator xs ++ splitOn separator ys := by
  induction xs with
  | nil => simp [splitOn]
  | cons c xs ih =>
    by_cases h : c = separator
    · simp [splitOn, h, ih]
    · cases hs : splitOn separator xs with
      | nil => exact absurd hs (splitOn_ne_nil separator xs)
      | cons part parts => simp [splitOn, h, ih, hs]

/-- A text without separators is one part. -/
theorem splitOn_of_not_mem {separator : Char} {cs : List Char} (h : separator ∉ cs) :
    splitOn separator cs = [cs] := by
  induction cs with
  | nil => rfl
  | cons c cs ih =>
    rw [List.mem_cons, not_or] at h
    simp [splitOn, Ne.symm h.1, ih h.2]

end Text

namespace Path

variable {directory name : String}

/-- The components of two paths with a slash between them are those of both. -/
theorem components_of_toList {path a b : String} (h : path.toList = a.toList ++ '/' :: b.toList) :
    components path = components a ++ components b := by
  simp only [components, h, Text.splitOn_append_cons, List.map_append, List.filter_append]

@[simp] theorem components_empty : components "" = [] := by
  simp [components, Text.splitOn]

/-- A name of something in a directory, which does not lead elsewhere. -/
structure IsName (name : String) : Prop where
  ne_empty : name ≠ ""
  ne_dot : name ≠ "."
  ne_dots : name ≠ ".."
  slash : '/' ∉ name.toList

namespace IsName

theorem isAbsolute (h : IsName name) : isAbsolute name = false := by
  rw [Path.isAbsolute, decide_eq_false_iff_not]
  intro hhead
  exact h.slash (List.mem_of_mem_head? hhead)

theorem components (h : IsName name) : components name = [name] := by
  simp [Path.components, Text.splitOn_of_not_mem h.slash, h.ne_empty, h.ne_dot]

/-- The components of a path to a name are those of the directory and the name. -/
theorem components_join (h : IsName name) :
    Path.components (join directory name) = Path.components directory ++ [name] := by
  rw [join, h.isAbsolute, Bool.false_or]
  split
  · next hempty =>
    obtain rfl : directory = "" := String.isEmpty_iff.1 hempty
    exact h.components
  · split
    · next hslash =>
      -- the directory ends in the slash between
      obtain ⟨cs, hcs⟩ : ∃ cs, directory.toList = cs ++ ['/'] :=
        List.getLast?_eq_some_iff.1 (of_decide_eq_true hslash)
      have hdirectory : Path.components directory = Path.components (String.ofList cs) ++ Path.components "" :=
        components_of_toList (by simp [hcs])
      have hjoin : Path.components (directory ++ name)
          = Path.components (String.ofList cs) ++ Path.components name :=
        components_of_toList (by simp [hcs])
      rw [hjoin, hdirectory, h.components, components_empty, List.append_nil]
    · have hjoin : Path.components (directory ++ "/" ++ name)
          = Path.components directory ++ Path.components name :=
        components_of_toList (by simp)
      rw [hjoin, h.components]

/-- A path to a name begins at the root if its directory does. -/
theorem isAbsolute_join (h : IsName name) :
    Path.isAbsolute (join directory name) = Path.isAbsolute directory := by
  rw [join, h.isAbsolute, Bool.false_or]
  split
  · next hempty =>
    obtain rfl : directory = "" := String.isEmpty_iff.1 hempty
    exact h.isAbsolute
  · next hempty =>
    have hcons : ∃ c cs, directory.toList = c :: cs := by
      refine List.exists_cons_of_ne_nil fun hnil => hempty ?_
      rw [String.toList_eq_nil_iff.1 hnil]
      rfl
    obtain ⟨c, cs, hcs⟩ := hcons
    split
    · simp [Path.isAbsolute, hcs]
    · simp [Path.isAbsolute, hcs]

theorem endsInSlash_join (h : IsName name) : endsInSlash (join directory name) = false := by
  obtain ⟨cs, hcs⟩ : ∃ cs, (join directory name).toList = cs ++ name.toList := by
    rw [join, h.isAbsolute, Bool.false_or]
    split
    · exact ⟨[], rfl⟩
    · split
      · exact ⟨_, String.toList_append⟩
      · exact ⟨_, String.toList_append⟩
  rw [endsInSlash, decide_eq_false_iff_not, hcs, List.getLast?_append]
  intro hlast
  cases hname : name.toList.getLast? with
  | none => exact h.ne_empty (String.toList_eq_nil_iff.1 (List.getLast?_eq_none_iff.1 hname))
  | some c =>
    rw [hname, Option.some_or, Option.some.injEq] at hlast
    exact h.slash (hlast ▸ List.mem_of_getLast? hname)

end IsName

end Path

namespace Disk

variable {d : Disk} {directory name other : String} {place goal : Place}

/-- Components are followed one after the other. -/
theorem walk_append (components more : List String) :
    d.walk place (components ++ more) = d.walk place components >>= fun q => d.walk q more := by
  induction components generalizing place with
  | nil => rfl
  | cons c components ih =>
    rw [List.cons_append, walk, walk]
    split
    · rfl
    · rfl
    · split
      · exact ih
      · split
        · rfl
        · exact ih

/-- A path leads to a directory at a place. -/
def HasDirectory (d : Disk) (path : String) (base : Place) : Prop :=
  d.walk (if Path.isAbsolute path then [] else d.current) (Path.components path) = .ok base ∧
    d.get? base = some .directory

/-- A path to a name leads right below its directory. -/
theorem locate_join_cases (hname : Path.IsName name)
    (h : d.locate (Path.join directory name) = .ok place) :
    ∃ base, d.HasDirectory directory base ∧ place = base ++ [name] := by
  unfold locate at h
  rw [hname.components_join, hname.isAbsolute_join, walk_append] at h
  split at h
  · cases h
  · split at h
    · cases h
    · split at h
      · cases h
      · obtain ⟨base, hbase, hlast⟩ := bind_eq_ok_iff.1 h
        rw [walk] at hlast
        split at hlast
        · cases hlast
        · cases hlast
        · next hdirectory =>
          rw [if_neg hname.ne_dots] at hlast
          split at hlast
          · cases hlast
          · obtain rfl : base ++ [name] = place := Except.ok.inj hlast
            exact ⟨base, ⟨hbase, hdirectory⟩, rfl⟩

/-- A path to a name leads to something of this name. -/
theorem getLast?_of_locate (hname : Path.IsName name)
    (h : d.locate (Path.join directory name) = .ok goal) : goal.getLast? = some name := by
  obtain ⟨base, -, rfl⟩ := locate_join_cases hname h
  exact List.getLast?_concat

/-- Different names in a directory lead to different places. -/
theorem locate_join_inj (hname : Path.IsName name) (hother : Path.IsName other)
    (h : d.locate (Path.join directory name) = .ok place)
    (h' : d.locate (Path.join directory other) = .ok place) : name = other := by
  have hlast := getLast?_of_locate hname h
  rw [getLast?_of_locate hother h'] at hlast
  exact (Option.some.inj hlast).symm

end Disk

end Provenance
