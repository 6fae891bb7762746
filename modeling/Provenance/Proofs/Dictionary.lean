import Mathlib.Data.List.Nodup
import Provenance.Dictionary

/-!
# Dictionaries of lists

What a dictionary made of a list holds: under each key the last of the list's entries.
-/

namespace Provenance.Dictionary

variable {κ α : Type} [Ord κ]

omit [Ord κ] in
@[simp]
theorem get?_nil [DecidableEq κ] {key : κ} : get? key ([] : List (κ × α)) = none := rfl

omit [Ord κ] in
theorem get?_cons [DecidableEq κ] {key k : κ} {v : α} {entries : List (κ × α)} :
    get? key ((k, v) :: entries) = if k = key then some v else get? key entries := by
  by_cases h : k = key <;> simp [get?, h]

omit [Ord κ] in
theorem get?_append [DecidableEq κ] {key : κ} {a b : List (κ × α)} :
    get? key (a ++ b) = (get? key a).or (get? key b) := by
  rw [get?, List.find?_append]
  cases h : a.find? fun entry => entry.1 = key with
  | none => simp [get?, h]
  | some entry => simp [get?, h]

omit [Ord κ] in
/-- A key whose entries all have one value has this value. -/
theorem get?_eq_some_of_forall [DecidableEq κ] {key : κ} {value : α} {entries : List (κ × α)}
    (hex : ∃ entry ∈ entries, entry.1 = key)
    (hall : ∀ entry ∈ entries, entry.1 = key → entry.2 = value) :
    get? key entries = some value := by
  obtain ⟨e, he, hkey⟩ := hex
  cases hf : entries.find? fun entry => entry.1 = key with
  | none => exact absurd hkey (by simpa using List.find?_eq_none.1 hf e he)
  | some found =>
    have hvalue := hall found (List.mem_of_find?_eq_some hf) (by simpa using List.find?_some hf)
    rw [get?, hf, Option.map_some, hvalue]

omit [Ord κ] in
theorem mem_of_get? [DecidableEq κ] {key : κ} {value : α} {entries : List (κ × α)}
    (h : get? key entries = some value) : (key, value) ∈ entries := by
  obtain ⟨e, hfound, rfl⟩ := Option.map_eq_some_iff.1 h
  have hkey : e.1 = key := by simpa using List.find?_some hfound
  exact hkey ▸ List.mem_of_find?_eq_some hfound

omit [Ord κ] in
theorem exists_get?_of_mem [DecidableEq κ] {key : κ} {value : α} {entries : List (κ × α)}
    (h : (key, value) ∈ entries) : ∃ found, get? key entries = some found := by
  have hfound : (entries.find? fun entry => entry.1 = key).isSome = true :=
    List.find?_isSome.2 ⟨_, h, decide_eq_true rfl⟩
  obtain ⟨entry, hentry⟩ := Option.isSome_iff_exists.1 hfound
  exact ⟨entry.2, by rw [get?, hentry, Option.map_some]⟩

omit [Ord κ] in
theorem get?_eq_none [DecidableEq κ] {key : κ} {entries : List (κ × α)} (h : key ∉ keys entries) :
    get? key entries = none := by
  rw [get?, Option.map_eq_none_iff, List.find?_eq_none]
  intro e he heq
  have hkey : e.1 = key := by simpa using heq
  exact h (hkey ▸ List.mem_map_of_mem he)

omit [Ord κ] in
theorem get?_ne_none_iff [DecidableEq κ] {key : κ} {entries : List (κ × α)} :
    get? key entries ≠ none ↔ key ∈ keys entries := by
  constructor
  · intro h
    exact Decidable.byContradiction fun hkey => h (get?_eq_none hkey)
  · intro h
    obtain ⟨entry, hentry, rfl⟩ := List.mem_map.1 h
    obtain ⟨found, hfound⟩ := exists_get?_of_mem hentry
    rw [hfound]
    exact Option.some_ne_none found

omit [Ord κ] in
/-- There is an entry under a key if a look-up finds one. -/
theorem contains_eq_isSome_get? [DecidableEq κ] {key : κ} {entries : List (κ × α)} :
    contains key entries = (get? key entries).isSome := by
  rw [contains, get?, Option.isSome_map, List.isSome_find?]

theorem contains_insert [DecidableEq κ] [Std.LawfulEqOrd κ] {key k : κ} {value : α}
    {entries : List (κ × α)} :
    contains k (insert key value entries) = (decide (k = key) || contains k entries) := by
  rw [contains_eq_isSome_get?, contains_eq_isSome_get?, get?_insert]
  split <;> simp_all

theorem get?_foldl_insert [DecidableEq κ] [Std.LawfulEqOrd κ] {key : κ}
    {entries : List (κ × α)} (d : List (κ × α)) :
    get? key (entries.foldl (fun d entry => insert entry.1 entry.2 d) d)
      = (get? key entries.reverse).or (get? key d) := by
  induction entries generalizing d with
  | nil => rfl
  | cons entry entries ih =>
    have hsingle : get? key [entry] = if key = entry.1 then some entry.2 else none := by
      by_cases h : key = entry.1
      · simp [get?, h]
      · simp [get?, h, Ne.symm h]
    rw [List.foldl_cons, ih, get?_insert, List.reverse_cons, get?_append, hsingle]
    by_cases h : key = entry.1
    · simp [h]
    · simp [h]

/-- Of entries under one key the last counts. -/
theorem get?_ofList [DecidableEq κ] [Std.LawfulEqOrd κ] {key : κ} {entries : List (κ × α)} :
    get? key (ofList entries) = get? key entries.reverse := by
  rw [ofList, get?_foldl_insert]
  cases get? key entries.reverse <;> rfl

/-- A key of the list is one of its dictionary. -/
theorem exists_mem_ofList [DecidableEq κ] [Std.LawfulEqOrd κ] {entry : κ × α}
    {entries : List (κ × α)} (h : entry ∈ entries) : ∃ e ∈ ofList entries, e.1 = entry.1 := by
  obtain ⟨value, hget⟩ := exists_get?_of_mem (List.mem_reverse.2 h)
  rw [← get?_ofList] at hget
  exact ⟨_, mem_of_get? hget, rfl⟩

theorem mem_insert {key : κ} {value : α} {entry : κ × α} {d : List (κ × α)}
    (h : entry ∈ insert key value d) : entry = (key, value) ∨ entry ∈ d := by
  induction d with
  | nil => simpa [insert] using h
  | cons e d ih =>
    obtain ⟨k, v⟩ := e
    simp only [insert] at h
    split at h
    · simpa using h
    · rcases List.mem_cons.1 h with h | h
      · exact .inl h
      · exact .inr (List.mem_cons_of_mem _ h)
    · rcases List.mem_cons.1 h with h | h
      · exact .inr (h ▸ List.mem_cons_self)
      · exact (ih h).imp_right (List.mem_cons_of_mem _)

theorem insert_ne_nil {key : κ} {value : α} {d : List (κ × α)} : insert key value d ≠ [] := by
  cases d with
  | nil => exact List.cons_ne_nil _ _
  | cons e d =>
    rw [insert]
    split <;> exact List.cons_ne_nil _ _

/-- A dictionary has no entries but those of its list. -/
theorem mem_of_mem_ofList {entry : κ × α} {entries : List (κ × α)}
    (h : entry ∈ ofList entries) : entry ∈ entries := by
  have aux : ∀ (es d : List (κ × α)),
      entry ∈ es.foldl (fun d e => insert e.1 e.2 d) d → entry ∈ es ∨ entry ∈ d := by
    intro es
    induction es with
    | nil => exact fun d hd => .inr hd
    | cons e es ih =>
      intro d hd
      rcases ih _ hd with hes | hins
      · exact .inl (List.mem_cons_of_mem _ hes)
      · rcases mem_insert hins with rfl | hd'
        · exact .inl List.mem_cons_self
        · exact .inr hd'
  exact (aux entries [] h).resolve_right (by simp)

omit [Ord κ] in
theorem get?_map [DecidableEq κ] {β : Type} {key : κ} (f : α → β) (entries : List (κ × α)) :
    get? key (entries.map fun e => (e.1, f e.2)) = (get? key entries).map f := by
  rw [get?, get?, List.find?_map, Option.map_map, Option.map_map]
  rfl

/-- The dictionary of a list of changed values has the changed values. -/
theorem ofList_map {β : Type} (f : α → β) (entries : List (κ × α)) :
    ofList (entries.map fun e => (e.1, f e.2)) = (ofList entries).map fun e => (e.1, f e.2) := by
  have hinsert : ∀ (key : κ) (value : α) (d : List (κ × α)),
      insert key (f value) (d.map fun e => (e.1, f e.2))
        = (insert key value d).map fun e => (e.1, f e.2) := by
    intro key value d
    induction d with
    | nil => rfl
    | cons e d ih =>
      rw [List.map_cons, insert, insert]
      cases compare key e.1 with
      | lt | eq => rfl
      | gt => simp [ih]
  have aux : ∀ es d : List (κ × α),
      (es.map fun e => (e.1, f e.2)).foldl (fun d e => insert e.1 e.2 d) (d.map fun e => (e.1, f e.2))
        = (es.foldl (fun d e => insert e.1 e.2 d) d).map fun e => (e.1, f e.2) := by
    intro es
    induction es with
    | nil => exact fun _ => rfl
    | cons e es ih =>
      intro d
      rw [List.map_cons, List.foldl_cons, hinsert]
      exact ih _
  exact aux entries []

/-! ## Order -/

section
variable {key k k' : κ} {value v v' : α} {d : List (κ × α)}

/-- The entries of a dictionary stand in increasing order of key. -/
def IsSorted (d : List (κ × α)) : Prop := d.Pairwise fun a b => compare a.1 b.1 = .lt

instance : Decidable (IsSorted d) :=
  inferInstanceAs (Decidable (d.Pairwise fun a b => compare a.1 b.1 = .lt))

theorem ne_of_compare_lt [Std.ReflOrd κ] (h : compare k k' = .lt) : k ≠ k' := by
  rintro rfl
  rw [Std.ReflOrd.compare_self] at h
  cases h

theorem keys_insert [Std.LawfulEqOrd κ] (h : k ∈ keys (insert key value d)) : k = key ∨ k ∈ keys d := by
  obtain ⟨entry, hentry, rfl⟩ := List.mem_map.1 h
  rcases mem_insert hentry with rfl | hd
  · exact .inl rfl
  · exact .inr (List.mem_map_of_mem hd)

/-- An entry that is put in its place keeps the order. -/
theorem isSorted_insert [Std.TransOrd κ] [Std.LawfulEqOrd κ] (h : IsSorted d) :
    IsSorted (insert key value d) := by
  induction d with
  | nil => exact List.pairwise_singleton _ _
  | cons e d ih =>
    obtain ⟨k', v'⟩ := e
    obtain ⟨hfirst, hrest⟩ := List.pairwise_cons.1 h
    rw [insert]
    cases hc : compare key k' with
    | lt =>
      refine List.pairwise_cons.2 ⟨fun entry hentry => ?_, h⟩
      rcases List.mem_cons.1 hentry with rfl | hentry
      · exact hc
      · exact Std.TransCmp.lt_trans hc (hfirst entry hentry)
    | eq =>
      obtain rfl := Std.LawfulEqOrd.eq_of_compare hc
      exact List.pairwise_cons.2 ⟨hfirst, hrest⟩
    | gt =>
      refine List.pairwise_cons.2 ⟨fun entry hentry => ?_, ih hrest⟩
      rcases mem_insert hentry with rfl | hentry
      · exact Std.OrientedCmp.gt_iff_lt.1 hc
      · exact hfirst entry hentry

private theorem insert_comm_of_lt [Std.TransOrd κ] [Std.LawfulEqOrd κ] (hlt : compare k k' = .lt) :
    insert k v (insert k' v' d) = insert k' v' (insert k v d) := by
  have hgt : compare k' k = .gt := Std.OrientedCmp.gt_iff_lt.2 hlt
  induction d with
  | nil => simp [insert, hlt, hgt]
  | cons e d ih =>
    obtain ⟨key, w⟩ := e
    cases hc' : compare k' key with
    | lt =>
      have hc : compare k key = .lt := Std.TransCmp.lt_trans hlt hc'
      simp [insert, hlt, hgt, hc, hc']
    | eq =>
      obtain rfl := Std.LawfulEqOrd.eq_of_compare hc'
      simp [insert, hlt, hgt]
    | gt => cases hc : compare k key <;> simp [insert, hgt, hc, hc', ih]

/-- Entries under different keys may be put in their places in any order. -/
theorem insert_comm [Std.TransOrd κ] [Std.LawfulEqOrd κ] (hne : k ≠ k') :
    insert k v (insert k' v' d) = insert k' v' (insert k v d) := by
  cases hc : compare k k' with
  | lt => exact insert_comm_of_lt hc
  | eq => exact absurd (Std.LawfulEqOrd.eq_of_compare hc) hne
  | gt => exact (insert_comm_of_lt (Std.OrientedCmp.gt_iff_lt.1 hc)).symm

theorem isSorted_ofList [Std.TransOrd κ] [Std.LawfulEqOrd κ] {entries : List (κ × α)} :
    IsSorted (ofList entries) :=
  List.foldlRecOn entries _ .nil fun _ hsorted _ _ => isSorted_insert hsorted

/-! ## Lists without a key twice -/

theorem perm_insert [Std.LawfulEqOrd κ] (h : key ∉ keys d) :
    (insert key value d).Perm ((key, value) :: d) := by
  induction d with
  | nil => exact .refl _
  | cons e d ih =>
    obtain ⟨k', w⟩ := e
    rw [insert]
    cases hc : compare key k' with
    | lt => exact .refl _
    | eq =>
      obtain rfl := Std.LawfulEqOrd.eq_of_compare hc
      exact absurd List.mem_cons_self h
    | gt => exact ((ih fun hd => h (List.mem_cons_of_mem _ hd)).cons _).trans (.swap _ _ _)

/-- The dictionary of a list without a key twice has the entries of the list. -/
theorem perm_ofList [Std.LawfulEqOrd κ] {entries : List (κ × α)} (h : (keys entries).Nodup) :
    (ofList entries).Perm entries := by
  have aux : ∀ (es d : List (κ × α)), (keys (es ++ d)).Nodup →
      (es.foldl (fun d e => insert e.1 e.2 d) d).Perm (es ++ d) := by
    intro es
    induction es with
    | nil => exact fun d _ => .refl _
    | cons e es ih =>
      intro d hnodup
      rw [List.cons_append, keys, List.map_cons, List.nodup_cons] at hnodup
      have hfresh : e.1 ∉ keys d := fun hd =>
        hnodup.1 (List.map_append ▸ List.mem_append_right _ hd)
      have hsame : (es ++ insert e.1 e.2 d).Perm (e :: (es ++ d)) :=
        ((perm_insert hfresh).append_left es).trans List.perm_middle
      refine (ih _ ((hsame.map _).nodup_iff.2 ?_)).trans hsame
      exact List.nodup_cons.2 hnodup
  simpa [ofList] using aux entries [] (by simpa using h)

theorem nodup_keys_of_isSorted [Std.ReflOrd κ] (h : IsSorted d) : (keys d).Nodup :=
  List.pairwise_map.2 (h.imp ne_of_compare_lt)

/-- The entries of a dictionary are what is found in it. -/
theorem get?_eq_some_iff [DecidableEq κ] [Std.ReflOrd κ] (h : IsSorted d) :
    get? key d = some value ↔ (key, value) ∈ d := by
  constructor
  · exact mem_of_get?
  · intro hmem
    refine get?_eq_some_of_forall ⟨_, hmem, rfl⟩ ?_
    intro entry hentry hkey
    rw [List.inj_on_of_nodup_map (nodup_keys_of_isSorted h) hentry hmem hkey]

/-- The first entry of which a function makes something is the least of them. -/
theorem exists_least_of_findSome? {β : Type} {f : κ × α → Option β} {b : β} (h : IsSorted d)
    (hfound : d.findSome? f = some b) :
    ∃ entry ∈ d, f entry = some b ∧
      ∀ other ∈ d, (f other).isSome → other = entry ∨ compare entry.1 other.1 = .lt := by
  obtain ⟨before, entry, after, rfl, hentry, hbefore⟩ := List.findSome?_eq_some_iff.1 hfound
  refine ⟨entry, by simp, hentry, ?_⟩
  intro other hother hsome
  rcases List.mem_append.1 hother with hother | hother
  · rw [hbefore other hother] at hsome
    cases hsome
  · rcases List.mem_cons.1 hother with rfl | hother
    · exact .inl rfl
    · have hafter := (List.pairwise_append.1 h).2.1
      exact .inr (List.rel_of_pairwise_cons hafter hother)

/-- The first entry with a property is the least of them. -/
theorem least_of_find? {p : κ × α → Bool} {entry : κ × α} (h : IsSorted d)
    (hfound : d.find? p = some entry) :
    ∀ other ∈ d, p other = true → other = entry ∨ compare entry.1 other.1 = .lt := by
  rw [List.find?_eq_findSome?_guard] at hfound
  obtain ⟨found, -, hguard, hleast⟩ := exists_least_of_findSome? h hfound
  obtain ⟨rfl, -⟩ := Option.guard_eq_some_iff.1 hguard
  intro other hother hp
  exact hleast other hother (by simp [Option.guard, hp])

/-- A dictionary is the one of its own entries. -/
theorem ofList_of_isSorted [Std.TransOrd κ] [Std.LawfulEqOrd κ] (h : IsSorted d) : ofList d = d := by
  have hperm := perm_ofList (nodup_keys_of_isSorted h)
  refine hperm.eq_of_pairwise (fun a b _ _ hab hba => ?_) isSorted_ofList h
  rw [Std.OrientedCmp.gt_iff_lt.2 hab] at hba
  cases hba

/-- In a dictionary it does not matter from which end one looks. -/
theorem get?_reverse_of_isSorted [DecidableEq κ] [Std.TransOrd κ] [Std.LawfulEqOrd κ] (h : IsSorted d) :
    get? key d.reverse = get? key d := by
  rw [← get?_ofList, ofList_of_isSorted h]

/-- The order of a list without a key twice does not matter to its dictionary. -/
theorem ofList_eq_of_perm [Std.TransOrd κ] [Std.LawfulEqOrd κ] {entries entries' : List (κ × α)}
    (h : (keys entries).Nodup) (hperm : entries.Perm entries') : ofList entries = ofList entries' := by
  refine hperm.foldl_eq' (fun a ha b hb d => ?_) []
  by_cases hkey : a.1 = b.1
  · rw [List.inj_on_of_nodup_map h ha hb hkey]
  · exact (insert_comm hkey).symm

end

end Provenance.Dictionary
