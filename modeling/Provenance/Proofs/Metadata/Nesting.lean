import Provenance.Proofs.Metadata.Libraries

/-!
# What nesting keeps

No address of a library is lost when libraries are nested by path and none is made up: what is found under a
path and a name is the address that is listed with both, or else what was nested there before
(`nesting_lossless`). Only a path that something else than names stands under takes no addresses.
-/

namespace Provenance

open Json

variable {libraries : List (String × Value)} {path name address key : String} {v : Value}

/-! ## Entries of both kinds -/

/-- The address that is listed with a path and a name. -/
def listed? (path name : String) (libraries : List (String × Value)) : Option String :=
  if ':' ∈ name.toList then none
  else (Dictionary.get? (path ++ ":" ++ name) libraries).bind Value.string?

/-- What is nested under a path and a name. -/
def nested? (path name : String) (libraries : List (String × Value)) : Option Value :=
  match Dictionary.get? path libraries with
  | some (.object names) => Dictionary.get? name names
  | _ => none

/-- What is passed under a key. -/
def Passes (libraries : List (String × Value)) (key : String) (v : Value) : Prop :=
  Dictionary.get? key libraries = some v ∧ isPassed (key, v) = true

/-- Something is passed under a path that can hold no names. -/
def Blocks (libraries : List (String × Value)) (path : String) : Prop :=
  ∃ v, Passes libraries path v ∧ ∀ names, v ≠ .object names

theorem listed?_eq_some_iff : listed? path name libraries = some address ↔
    ':' ∉ name.toList ∧ Dictionary.get? (path ++ ":" ++ name) libraries = some (.string address) := by
  unfold listed?
  split
  · next hcolon => simp [hcolon]
  · next hcolon =>
    have hstring : ∀ u : Value, u.string? = some address ↔ u = .string address := by
      intro u
      cases u <;> simp [Value.string?]
    simp [hcolon, Option.bind_eq_some_iff, hstring]

/-- An entry is passed unless it lists an address with a path and a name. -/
theorem not_passes_iff (hget : Dictionary.get? key libraries = some v) :
    ¬ Passes libraries key v ↔ ∃ path name address, key = path ++ ":" ++ name ∧ v = .string address ∧
      listed? path name libraries = some address := by
  constructor
  · intro h
    have hlists : isPassed (key, v) = false := Bool.eq_false_iff.2 fun hpassed => h ⟨hget, hpassed⟩
    unfold isPassed at hlists
    split at hlists
    · next address hv =>
      obtain rfl : v = .string address := hv
      cases hname : libraryName? key with
      | none => exact absurd (libraryName?_eq_none_iff.1 hname) (by simpa using hlists)
      | some found =>
        obtain ⟨path, name⟩ := found
        obtain ⟨rfl, hcolon⟩ := libraryName?_eq_some_iff.1 hname
        exact ⟨path, name, address, rfl, rfl, listed?_eq_some_iff.2 ⟨hcolon, hget⟩⟩
    · cases hlists
  · rintro ⟨path, name, address, rfl, rfl, -⟩ ⟨-, hpassed⟩
    simp [isPassed] at hpassed

/-! ## Names that are listed with a path -/

theorem mem_namesUnder_iff (hsorted : Dictionary.IsSorted libraries) :
    (name, v) ∈ namesUnder path libraries ↔
      ∃ address, v = .string address ∧ listed? path name libraries = some address := by
  constructor
  · intro h
    obtain ⟨⟨key, value⟩, hmem, hentry⟩ := List.mem_filterMap.1 h
    split at hentry
    · next address hvalue =>
      obtain rfl : value = .string address := hvalue
      obtain ⟨found, hname, hfound⟩ := Option.map_eq_some_iff.1 hentry
      obtain ⟨rfl, rfl⟩ := Prod.mk.inj hfound
      obtain ⟨rfl, hcolon⟩ := nameUnder?_eq_some_iff.1 hname
      have hget := (Dictionary.get?_eq_some_iff hsorted).2 hmem
      exact ⟨address, rfl, listed?_eq_some_iff.2 ⟨hcolon, hget⟩⟩
    · cases hentry
  · rintro ⟨address, rfl, hlisted⟩
    obtain ⟨hcolon, hget⟩ := listed?_eq_some_iff.1 hlisted
    have hname : nameUnder? path (path ++ ":" ++ name) = some name := nameUnder?_eq_some_iff.2 ⟨rfl, hcolon⟩
    exact List.mem_filterMap.2 ⟨_, Dictionary.mem_of_get? hget, by simp [hname]⟩

/-- Among the names that are listed with a path, in either order, each has its address. -/
theorem get?_reverse_namesUnder (hsorted : Dictionary.IsSorted libraries) :
    Dictionary.get? name (namesUnder path libraries).reverse = (listed? path name libraries).map .string := by
  cases hlisted : listed? path name libraries with
  | none =>
    refine Dictionary.get?_eq_none fun hkey => ?_
    obtain ⟨entry, hentry, hname⟩ := List.mem_map.1 hkey
    obtain ⟨address, -, haddress⟩ := (mem_namesUnder_iff hsorted).1 (List.mem_reverse.1 hentry)
    rw [hname, hlisted] at haddress
    cases haddress
  | some address =>
    have hmem : (name, Value.string address) ∈ namesUnder path libraries :=
      (mem_namesUnder_iff hsorted).2 ⟨address, rfl, hlisted⟩
    refine Dictionary.get?_eq_some_of_forall ⟨_, List.mem_reverse.2 hmem, rfl⟩ ?_
    intro entry hentry hname
    obtain ⟨other, hvalue, hother⟩ := (mem_namesUnder_iff hsorted).1 (List.mem_reverse.1 hentry)
    rw [hname, hlisted, Option.some_inj] at hother
    rw [hvalue, hother]

theorem namesUnder_eq_nil_iff (hsorted : Dictionary.IsSorted libraries) :
    namesUnder path libraries = [] ↔ ∀ name, listed? path name libraries = none := by
  constructor
  · intro h name
    have hget : Dictionary.get? name (namesUnder path libraries).reverse = (listed? path name libraries).map .string :=
      get?_reverse_namesUnder hsorted
    rw [h] at hget
    exact Option.map_eq_none_iff.1 hget.symm
  · intro h
    refine List.eq_nil_iff_forall_not_mem.2 fun entry hentry => ?_
    obtain ⟨address, -, hlisted⟩ := (mem_namesUnder_iff hsorted).1 hentry
    rw [h entry.1] at hlisted
    cases hlisted

/-! ## Adding names -/

theorem foldl_addName_object (entries names : List (String × Value)) :
    entries.foldl addName (some (.object names))
      = some (.object (entries.foldl (fun d e => Dictionary.insert e.1 e.2 d) names)) := by
  induction entries generalizing names with
  | nil => rfl
  | cons e entries ih => exact ih _

/-- Where nothing stands, the names that are added are all there is. -/
theorem foldl_addName_none {entries : List (String × Value)} (h : entries ≠ []) :
    entries.foldl addName none = some (.object (Dictionary.ofList entries)) := by
  cases entries with
  | nil => exact absurd rfl h
  | cons e entries => exact foldl_addName_object entries [e]

theorem foldl_addName_of_ne_object (h : ∀ names, v ≠ .object names) (entries : List (String × Value)) :
    entries.foldl addName (some v) = some v := by
  induction entries with
  | nil => rfl
  | cons e entries ih =>
    have hstep : addName (some v) e = some v := by
      cases v with
      | object names => exact absurd rfl (h names)
      | _ => rfl
    rw [List.foldl_cons, hstep, ih]

/-! ## Under one path -/

theorem get?_passed (hsorted : Dictionary.IsSorted libraries) :
    Dictionary.get? key (libraries.filter isPassed) = some v ↔ Passes libraries key v := by
  rw [Dictionary.get?_eq_some_iff (List.Pairwise.filter isPassed hsorted), List.mem_filter, Passes,
    Dictionary.get?_eq_some_iff hsorted]

/-- What is passed under a path is there after nesting, with the listed names added. -/
theorem get?_nestLibraries_of_passes (hsorted : Dictionary.IsSorted libraries) (h : Passes libraries path v) :
    Dictionary.get? path (nestLibraries libraries) = (namesUnder path libraries).foldl addName (some v) := by
  rw [get?_nestLibraries hsorted, nestedUnder, (get?_passed hsorted).2 h]

theorem get?_nestLibraries_of_not_passes (hsorted : Dictionary.IsSorted libraries)
    (h : ∀ v, ¬ Passes libraries path v) :
    Dictionary.get? path (nestLibraries libraries) = (namesUnder path libraries).foldl addName none := by
  have hnone : Dictionary.get? path (libraries.filter isPassed) = none :=
    Option.eq_none_iff_forall_ne_some.2 fun v hv => h v ((get?_passed hsorted).1 hv)
  rw [get?_nestLibraries hsorted, nestedUnder, hnone]

/-- A path that is blocked stays as it is. -/
theorem get?_nestLibraries_of_blocks (hsorted : Dictionary.IsSorted libraries) (h : Blocks libraries path) :
    ∃ v, Dictionary.get? path (nestLibraries libraries) = some v ∧ ∀ names, v ≠ .object names := by
  obtain ⟨v, hpasses, hother⟩ := h
  refine ⟨v, ?_, hother⟩
  rw [get?_nestLibraries_of_passes hsorted hpasses, foldl_addName_of_ne_object hother]

/-- What is found under a path that is not blocked, and a name. -/
theorem nested?_nestLibraries (hsorted : Dictionary.IsSorted libraries) (h : ¬ Blocks libraries path) :
    nested? path name (nestLibraries libraries)
      = ((listed? path name libraries).map .string).or (nested? path name libraries) := by
  have hlisted : Dictionary.get? name (namesUnder path libraries).reverse = (listed? path name libraries).map .string :=
    get?_reverse_namesUnder hsorted
  by_cases hpassed : ∃ v, Passes libraries path v
  · obtain ⟨v, hpasses⟩ := hpassed
    obtain ⟨names, rfl⟩ : ∃ names, v = .object names := by
      by_contra hno
      exact h ⟨v, hpasses, fun names hv => hno ⟨names, hv⟩⟩
    have hbefore : nested? path name libraries = Dictionary.get? name names := by
      rw [nested?, hpasses.1]
    rw [hbefore, ← hlisted, ← Dictionary.get?_foldl_insert, nested?,
      get?_nestLibraries_of_passes hsorted hpasses, foldl_addName_object]
  · have hnone : ∀ v, ¬ Passes libraries path v := fun v hv => hpassed ⟨v, hv⟩
    -- what holds names is passed
    have hbefore : nested? path name libraries = none := by
      unfold nested?
      split
      · next names hget => exact absurd ⟨hget, rfl⟩ (hnone (.object names))
      · rfl
    rw [hbefore, Option.or_none, ← hlisted, ← Dictionary.get?_ofList, nested?,
      get?_nestLibraries_of_not_passes hsorted hnone]
    by_cases hempty : namesUnder path libraries = []
    · rw [hempty]
      rfl
    · rw [foldl_addName_none hempty]

theorem foldl_addName_ne_none (entries : List (String × Value)) (v : Value) :
    entries.foldl addName (some v) ≠ none := by
  cases v with
  | object names =>
    rw [foldl_addName_object]
    exact Option.some_ne_none _
  | _ =>
    rw [foldl_addName_of_ne_object (by simp)]
    exact Option.some_ne_none _

/-- Under which keys there is something after nesting. -/
theorem mem_keys_nestLibraries_iff (hsorted : Dictionary.IsSorted libraries) :
    key ∈ Dictionary.keys (nestLibraries libraries) ↔
      (∃ v, Passes libraries key v) ∨ ∃ name address, listed? key name libraries = some address := by
  rw [← Dictionary.get?_ne_none_iff]
  by_cases hpassed : ∃ v, Passes libraries key v
  · obtain ⟨v, hpasses⟩ := hpassed
    rw [get?_nestLibraries_of_passes hsorted hpasses]
    exact iff_of_true (foldl_addName_ne_none _ v) (.inl ⟨v, hpasses⟩)
  · have hnone : ∀ v, ¬ Passes libraries key v := fun v hv => hpassed ⟨v, hv⟩
    rw [get?_nestLibraries_of_not_passes hsorted hnone]
    by_cases hempty : namesUnder key libraries = []
    · rw [hempty]
      have hno := (namesUnder_eq_nil_iff hsorted).1 hempty
      simp [hpassed, hno]
    · rw [foldl_addName_none hempty]
      have hsome : ∃ name address, listed? key name libraries = some address := by
        obtain ⟨entry, hentry⟩ := List.exists_mem_of_ne_nil _ hempty
        obtain ⟨address, -, hlisted⟩ := (mem_namesUnder_iff hsorted).1 hentry
        exact ⟨entry.1, address, hlisted⟩
      exact iff_of_true (Option.some_ne_none _) (.inr hsome)

/-! ## All libraries -/

/-- What the nested form of libraries has, by what the libraries have. -/
structure Lossless (libraries nested : List (String × Value)) : Prop where
  /-- The nested form is a map as well. -/
  sorted : Dictionary.IsSorted nested
  /-- An entry is passed unless it lists an address with a path and a name. -/
  kinds : ∀ key v, Dictionary.get? key libraries = some v →
    (¬ Passes libraries key v ↔ ∃ path name address, key = path ++ ":" ++ name ∧ v = .string address ∧
      listed? path name libraries = some address)
  /-- There is something under the keys that are passed and the paths that names are listed with. -/
  keys : ∀ key, key ∈ Dictionary.keys nested ↔
    (∃ v, Passes libraries key v) ∨ ∃ name address, listed? key name libraries = some address
  /-- An address that is listed goes before one that was nested, and there are no others. -/
  found : ∀ path name, ¬ Blocks libraries path →
    nested? path name nested
      = ((listed? path name libraries).map .string).or (nested? path name libraries)
  /-- What can hold no names stays. -/
  held : ∀ key v, Passes libraries key v → (∀ names, v ≠ .object names) → Dictionary.get? key nested = some v
  /-- What no names are listed for stays. -/
  alone : ∀ key v, Passes libraries key v → (∀ name, listed? key name libraries = none) →
    Dictionary.get? key nested = some v
  /-- An address is dropped exactly where its path is blocked. -/
  dropped : ∀ path name address, listed? path name libraries = some address →
    (nested? path name nested ≠ some (.string address) ↔ Blocks libraries path)

/-- Nesting loses and invents nothing. -/
theorem nesting_lossless (hsorted : Dictionary.IsSorted libraries) :
    Lossless libraries (nestLibraries libraries) := by
  refine ⟨isSorted_nestLibraries, fun key v => not_passes_iff, fun key => mem_keys_nestLibraries_iff hsorted,
    fun path name h => nested?_nestLibraries hsorted h, ?_, ?_, ?_⟩
  · intro key v hpasses hother
    rw [get?_nestLibraries_of_passes hsorted hpasses, foldl_addName_of_ne_object hother]
  · intro key v hpasses hnone
    rw [get?_nestLibraries_of_passes hsorted hpasses, (namesUnder_eq_nil_iff hsorted).2 hnone]
    rfl
  · intro path name address hlisted
    constructor
    · intro hlost
      by_contra hfree
      rw [nested?_nestLibraries hsorted hfree, hlisted] at hlost
      exact hlost rfl
    · intro hblocked
      obtain ⟨v, hget, hother⟩ := get?_nestLibraries_of_blocks hsorted hblocked
      have hnone : nested? path name (nestLibraries libraries) = none := by
        unfold nested?
        rw [hget]
        split
        · next names hv => exact absurd (Option.some_inj.1 hv) (hother names)
        · rfl
      rw [hnone]
      exact (Option.some_ne_none _).symm

/-- A name is added to those nested under its path, a path has a colon of its own, and one is blocked. -/
theorem nesting_lossless_of_mixed :
    Dictionary.IsSorted
        [("a.sol", Value.object [("L", .string "0x01"), ("M", .string "0x02")]), ("a.sol:L", .string "0x03"),
          ("b:c.sol:N", .string "0x04"), ("d.sol", .bool true), ("d.sol:P", .string "0x05")] ∧
      Lossless
        [("a.sol", .object [("L", .string "0x01"), ("M", .string "0x02")]), ("a.sol:L", .string "0x03"),
          ("b:c.sol:N", .string "0x04"), ("d.sol", .bool true), ("d.sol:P", .string "0x05")]
        [("a.sol", .object [("L", .string "0x03"), ("M", .string "0x02")]),
          ("b:c.sol", .object [("N", .string "0x04")]), ("d.sol", .bool true)] := by
  have hsorted : Dictionary.IsSorted
      [("a.sol", Value.object [("L", .string "0x01"), ("M", .string "0x02")]), ("a.sol:L", .string "0x03"),
        ("b:c.sol:N", .string "0x04"), ("d.sol", .bool true), ("d.sol:P", .string "0x05")] := by
    decide +kernel
  exact ⟨hsorted, nesting_lossless hsorted⟩

end Provenance
