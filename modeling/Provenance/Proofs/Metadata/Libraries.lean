import Mathlib.Data.List.TakeWhile
import Mathlib.Data.String.Basic
import Mathlib.Order.Compare
import Provenance.Proofs.Dictionary
import Provenance.StandardJson

/-!
# Libraries in nested form

What a compiler finds under the path of a source: the names and addresses that are listed with this path, added to what
is nested under it already.
-/

namespace Provenance

open Json

/-! ## Names of libraries -/

theorem splitLastColon_append {path name : List Char} (h : ':' ∉ name) :
    splitLastColon (path ++ ':' :: name) = some (path, name) := by
  have hname : ((path ++ ':' :: name).reverse.takeWhile (· ≠ ':')).reverse = name := by
    rw [List.reverse_append, List.reverse_cons, List.append_assoc, List.takeWhile_append_of_pos]
    · simp
    · intro c hc
      have hne : c ≠ ':' := fun heq => h (heq ▸ List.mem_reverse.1 hc)
      simpa using hne
  have hlength : name.length ≠ (path ++ ':' :: name).length := by
    rw [List.length_append, List.length_cons]
    omega
  have htake : (path ++ ':' :: name).take ((path ++ ':' :: name).length - name.length - 1) = path := by
    rw [List.length_append, List.length_cons]
    exact List.take_left' (by omega)
  simp only [splitLastColon, hname, if_neg hlength, htake]

theorem splitLastColon_eq_some_iff {cs path name : List Char} :
    splitLastColon cs = some (path, name) ↔ cs = path ++ ':' :: name ∧ ':' ∉ name := by
  constructor
  · intro h
    by_cases hcolon : ':' ∈ cs
    · obtain ⟨tail, head, hreverse, htail⟩ := List.eq_append_cons_of_mem (List.mem_reverse.2 hcolon)
      have hcs : cs = head.reverse ++ ':' :: tail.reverse := by
        rw [← List.reverse_reverse cs, hreverse]
        simp
      have hname : ':' ∉ tail.reverse := fun hmem => htail (List.mem_reverse.1 hmem)
      rw [hcs, splitLastColon_append hname] at h
      cases h
      exact ⟨hcs, hname⟩
    · have hall : cs.reverse.takeWhile (· ≠ ':') = cs.reverse := by
        refine List.takeWhile_eq_self_iff.2 fun c hc => ?_
        have hne : c ≠ ':' := fun heq => hcolon (heq ▸ List.mem_reverse.1 hc)
        simpa using hne
      rw [splitLastColon, hall, List.reverse_reverse, if_pos rfl] at h
      cases h
  · rintro ⟨rfl, h⟩
    exact splitLastColon_append h

/-- A library is listed by its path, a colon and its name. -/
theorem libraryName?_eq_some_iff {key path name : String} :
    libraryName? key = some (path, name) ↔ key = path ++ ":" ++ name ∧ ':' ∉ name.toList := by
  rw [libraryName?, Option.map_eq_some_iff]
  constructor
  · rintro ⟨⟨p, n⟩, hsplit, heq⟩
    obtain ⟨hkey, hn⟩ := splitLastColon_eq_some_iff.1 hsplit
    cases heq
    refine ⟨String.toList_inj.1 ?_, by simpa using hn⟩
    simp [hkey]
  · rintro ⟨rfl, hn⟩
    exact ⟨(path.toList, name.toList), splitLastColon_eq_some_iff.2 ⟨by simp, hn⟩, by simp⟩

/-! ## Paths -/

/-- Whether an entry is passed as it is: it has no address, or its key is no path with a name. -/
def isPassed (entry : String × Value) : Bool :=
  match entry.2 with
  | .string _ => ':' ∉ entry.1.toList
  | _ => true

/-- The name that a key has after a path and a colon. There is no colon in a name. -/
def nameUnder? (path key : String) : Option String :=
  let name := key.toList.drop (path.toList.length + 1)
  if key.toList = path.toList ++ ':' :: name ∧ ':' ∉ name then some (String.ofList name) else none

/-- The names and addresses that are listed with a path. -/
def namesUnder (path : String) (libraries : List (String × Value)) : List (String × Value) :=
  libraries.filterMap fun entry =>
    match entry.2 with
    | .string address => (nameUnder? path entry.1).map fun name => (name, .string address)
    | _ => none

/-- What stands under a path after a name was added. What holds no names stays. -/
def addName (under : Option Value) (entry : String × Value) : Option Value :=
  match under with
  | none => some (.object [entry])
  | some (.object names) => some (.object (Dictionary.insert entry.1 entry.2 names))
  | some v => some v

/-- What the nested form has under a path: what is passed under it, and the names that are listed with it. -/
def nestedUnder (path : String) (libraries : List (String × Value)) : Option Value :=
  (namesUnder path libraries).foldl addName (Dictionary.get? path (libraries.filter isPassed))

variable {path : String} {libraries nested : List (String × Value)} {entry : String × Value}

theorem nameUnder?_eq_some_iff {key name : String} :
    nameUnder? path key = some name ↔ key = path ++ ":" ++ name ∧ ':' ∉ name.toList := by
  unfold nameUnder?
  dsimp only
  constructor
  · intro h
    split at h
    · next hkey =>
      cases h
      refine ⟨String.toList_inj.1 ?_, by simpa using hkey.2⟩
      rw [hkey.1]
      simp
    · cases h
  · rintro ⟨rfl, hname⟩
    have hdrop : (path ++ ":" ++ name).toList.drop (path.toList.length + 1) = name.toList := by
      simp [List.drop_append]
    rw [hdrop, if_pos ⟨by simp, hname⟩, String.ofList_toList]

/-- The last colon of a key is the one before its name. -/
theorem nameUnder?_eq {key : String} : nameUnder? path key
    = (libraryName? key).bind fun found => if found.1 = path then some found.2 else none := by
  refine Option.ext fun name => ?_
  rw [nameUnder?_eq_some_iff, ← libraryName?_eq_some_iff, Option.bind_eq_some_iff]
  constructor
  · intro h
    exact ⟨_, h, if_pos rfl⟩
  · rintro ⟨⟨p, n⟩, h, heq⟩
    split at heq
    · next hp =>
      obtain rfl : n = name := Option.some.inj heq
      obtain rfl : p = path := hp
      exact h
    · cases heq

theorem libraryName?_eq_none_iff {key : String} : libraryName? key = none ↔ ':' ∉ key.toList := by
  rw [Option.eq_none_iff_forall_ne_some]
  constructor
  · intro h hcolon
    obtain ⟨tail, head, hreverse, htail⟩ := List.eq_append_cons_of_mem (List.mem_reverse.2 hcolon)
    refine h (String.ofList head.reverse, String.ofList tail.reverse)
      (libraryName?_eq_some_iff.2 ⟨?_, by simpa using htail⟩)
    refine String.toList_inj.1 ?_
    rw [← List.reverse_reverse key.toList, hreverse]
    simp
  · rintro hcolon ⟨p, n⟩ h
    obtain ⟨rfl, -⟩ := libraryName?_eq_some_iff.1 h
    simp at hcolon

theorem namesUnder_append (before after : List (String × Value)) :
    namesUnder path (before ++ after) = namesUnder path before ++ namesUnder path after :=
  List.filterMap_append

theorem get?_addLibrary {p name address : String} :
    Dictionary.get? path (addLibrary p name address nested)
      = if path = p then addName (Dictionary.get? path nested) (name, .string address)
        else Dictionary.get? path nested := by
  unfold addLibrary
  by_cases hp : path = p
  · subst hp
    rw [if_pos rfl]
    split
    · next hnone => rw [Dictionary.get?_insert, if_pos rfl, hnone]; rfl
    · next names hnames => rw [Dictionary.get?_insert, if_pos rfl, hnames]; rfl
    · next v hobject hv =>
      rw [hv]
      cases v with
      | object names => exact (hobject names rfl).elim
      | _ => rfl
  · rw [if_neg hp]
    split
    · rw [Dictionary.get?_insert, if_neg hp]
    · rw [Dictionary.get?_insert, if_neg hp]
    · rfl

/-- An entry is passed as it is, or it lists a name with a path. -/
theorem passed_or_listed (entry : String × Value) :
    (isPassed entry = true ∧ namesUnder path [entry] = [] ∧
        nestLibrary nested entry = Dictionary.insert entry.1 entry.2 nested) ∨
      (isPassed entry = false ∧ ∃ p name address, libraryName? entry.1 = some (p, name) ∧
        namesUnder path [entry] = (if p = path then [(name, .string address)] else []) ∧
        nestLibrary nested entry = addLibrary p name address nested) := by
  obtain ⟨key, v⟩ := entry
  cases v with
  | string address =>
    cases hname : libraryName? key with
    | none =>
      have hcolon := libraryName?_eq_none_iff.1 hname
      exact .inl (by simp [isPassed, namesUnder, nameUnder?_eq, nestLibrary, hname, hcolon])
    | some found =>
      have hcolon : ':' ∈ key.toList := by
        by_contra hno
        cases hname.symm.trans (libraryName?_eq_none_iff.2 hno)
      refine .inr ⟨by simp [isPassed, hcolon], found.1, found.2, address, rfl, ?_, ?_⟩
      · by_cases hp : found.1 = path <;> simp [namesUnder, nameUnder?_eq, hname, hp]
      · simp [nestLibrary, hname]
  | _ => exact .inl ⟨rfl, rfl, rfl⟩

theorem get?_nestLibrary :
    Dictionary.get? path (nestLibrary nested entry)
      = if isPassed entry = true ∧ path = entry.1 then some entry.2
        else (namesUnder path [entry]).foldl addName (Dictionary.get? path nested) := by
  rcases @passed_or_listed path nested entry with
    ⟨hpassed, hnames, hinsert⟩ | ⟨hpassed, p, name, address, -, hnames, hadd⟩
  · rw [hinsert, hnames, Dictionary.get?_insert]
    simp [hpassed]
  · rw [hadd, hnames, get?_addLibrary, hpassed]
    by_cases hp : path = p
    · simp [hp]
    · simp [hp, Ne.symm hp]

/-- Where nothing is passed under a path, the listed names are added there. -/
theorem get?_foldl_nestLibrary (h : ∀ e ∈ libraries, isPassed e = true → path ≠ e.1) :
    Dictionary.get? path (libraries.foldl nestLibrary nested)
      = (namesUnder path libraries).foldl addName (Dictionary.get? path nested) := by
  induction libraries generalizing nested with
  | nil => rfl
  | cons e es ih =>
    have hcons : namesUnder path (e :: es) = namesUnder path [e] ++ namesUnder path es := namesUnder_append [e] es
    rw [List.foldl_cons, ih fun e he => h e (List.mem_cons_of_mem _ he), get?_nestLibrary,
      if_neg fun hp => h e List.mem_cons_self hp.1 hp.2, hcons, List.foldl_append]

/-- The key of a listed library stands behind its path. -/
theorem not_compare_lt_of_nameUnder? {key name : String} (h : nameUnder? path key = some name) :
    compare key path ≠ .lt := by
  obtain ⟨rfl, -⟩ := nameUnder?_eq_some_iff.1 h
  rw [Ne, compare_lt_iff_lt, String.lt_iff, String.append_assoc, String.toList_append]
  exact List.le_append_left

theorem namesUnder_of_passed (h : isPassed entry = true) : namesUnder path [entry] = [] := by
  rcases @passed_or_listed path [] entry with ⟨-, hnone, -⟩ | ⟨hlisted, -⟩
  · exact hnone
  · cases h.symm.trans hlisted

/-- Nothing that stands before a path lists a name with it. -/
theorem namesUnder_of_lt (h : ∀ e ∈ libraries, compare e.1 path = .lt) : namesUnder path libraries = [] := by
  refine List.filterMap_eq_nil_iff.2 fun e he => ?_
  split
  · refine Option.map_eq_none_iff.2 (Option.eq_none_iff_forall_ne_some.2 fun name hname => ?_)
    exact not_compare_lt_of_nameUnder? hname (h e he)
  · rfl

theorem get?_filter_isPassed (h : ∀ e ∈ libraries, isPassed e = true → path ≠ e.1) :
    Dictionary.get? path (libraries.filter isPassed) = none := by
  refine Dictionary.get?_eq_none fun hmem => ?_
  obtain ⟨e, he, rfl⟩ := List.mem_map.1 hmem
  obtain ⟨he, hpassed⟩ := List.mem_filter.1 he
  exact h e he hpassed rfl

/-- Libraries are nested by path. -/
theorem get?_nestLibraries (hsorted : Dictionary.IsSorted libraries) :
    Dictionary.get? path (nestLibraries libraries) = nestedUnder path libraries := by
  by_cases h : ∃ e ∈ libraries, isPassed e = true ∧ path = e.1
  · obtain ⟨e, hmem, hpassed, rfl⟩ := h
    obtain ⟨before, after, rfl⟩ := List.append_of_mem hmem
    obtain ⟨-, hafter, hbefore⟩ := List.pairwise_append.1 hsorted
    have hlt : ∀ e' ∈ before, compare e'.1 e.1 = .lt := fun e' he' => hbefore e' he' e List.mem_cons_self
    have hgt : ∀ e' ∈ after, compare e.1 e'.1 = .lt := (List.pairwise_cons.1 hafter).1
    have hnames : namesUnder e.1 (before ++ e :: after) = namesUnder e.1 after := by
      -- what lists a name with this path comes later, as its key goes on where the path ends
      rw [namesUnder_append, namesUnder_of_lt hlt, List.nil_append, ← List.singleton_append, namesUnder_append,
        namesUnder_of_passed hpassed, List.nil_append]
    have hgiven : Dictionary.get? e.1 ((before ++ e :: after).filter isPassed) = some e.2 := by
      rw [List.filter_append, Dictionary.get?_append, List.filter_cons_of_pos hpassed,
        get?_filter_isPassed fun e' he' _ => (Dictionary.ne_of_compare_lt (hlt e' he')).symm]
      simp [Dictionary.get?]
    rw [nestLibraries, List.foldl_append, List.foldl_cons,
      get?_foldl_nestLibrary fun e' he' _ => Dictionary.ne_of_compare_lt (hgt e' he'), get?_nestLibrary,
      if_pos ⟨hpassed, rfl⟩, nestedUnder, hnames, hgiven]
  · have hne : ∀ e ∈ libraries, isPassed e = true → path ≠ e.1 := fun e he hp heq => h ⟨e, he, hp, heq⟩
    rw [nestLibraries, get?_foldl_nestLibrary hne, nestedUnder, get?_filter_isPassed hne]
    rfl

theorem isSorted_nestLibraries : Dictionary.IsSorted (nestLibraries libraries) := by
  have hstep : ∀ (nested : List (String × Value)) (e : String × Value), Dictionary.IsSorted nested →
      Dictionary.IsSorted (nestLibrary nested e) := by
    intro nested e hsorted
    rcases @passed_or_listed "" nested e with ⟨-, -, hinsert⟩ | ⟨-, p, name, address, -, -, hadd⟩
    · rw [hinsert]
      exact Dictionary.isSorted_insert hsorted
    · rw [hadd, addLibrary]
      split
      · exact Dictionary.isSorted_insert hsorted
      · exact Dictionary.isSorted_insert hsorted
      · exact hsorted
  exact List.foldlRecOn libraries nestLibrary .nil fun nested hsorted e _ => hstep nested e hsorted

theorem nestLibrary_ne_nil : nestLibrary nested entry ≠ [] := by
  rcases @passed_or_listed "" nested entry with ⟨-, -, hinsert⟩ | ⟨-, p, name, address, -, -, hadd⟩
  · rw [hinsert]
    exact Dictionary.insert_ne_nil
  · rw [hadd, addLibrary]
    split
    · exact Dictionary.insert_ne_nil
    · exact Dictionary.insert_ne_nil
    · next hsome =>
      rintro rfl
      cases hsome

/-- There is something in nested form unless there are no libraries. -/
theorem nestLibraries_eq_nil_iff : nestLibraries libraries = [] ↔ libraries = [] := by
  constructor
  · intro h
    rcases List.eq_nil_or_concat libraries with hnil | ⟨before, e, rfl⟩
    · exact hnil
    · rw [nestLibraries, List.concat_eq_append, List.foldl_append] at h
      exact absurd h nestLibrary_ne_nil
  · rintro rfl
    rfl

end Provenance
