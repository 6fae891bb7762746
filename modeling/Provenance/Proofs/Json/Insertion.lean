import Provenance.Proofs.Json.Parts

/-!
# One part of a record among others

The member that sets a part of a record may be read last, wherever it stands among the members of an object
(`Record.Orderless.decoder_middle`). What is changed before the items of a list are read may be changed after it, if
none of them has to do with it (`Record.elements_changed`).
-/

namespace Provenance.Json

theorem exists_append_of_forall₂ {α β : Type} {R : α → β → Prop} {as as' : List α} {bs : List β}
    (h : List.Forall₂ R (as ++ as') bs) :
    ∃ cs cs', bs = cs ++ cs' ∧ List.Forall₂ R as cs ∧ List.Forall₂ R as' cs' :=
  ⟨_, _, (List.take_append_drop as.length bs).symm, (List.forall₂_take_append _ _ _ h.flip).flip,
    (List.forall₂_drop_append _ _ _ h.flip).flip⟩

theorem lastMember?_eq_none_iff {key : String} {members : List (Key × Node)} :
    lastMember? key members = none ↔ key ∉ keyTexts members := by
  simp [lastMember?, keyTexts]

namespace Record

variable {α σ : Type} {r : Record σ} {depth : Nat} {name : String} {d : Decoder α} {part : σ → α}
  {m : Key × Node} {c : Option String × (σ → σ)} {members before after : List (Key × Node)}
  {changes earlier later : List (Option String × (σ → σ))} {state : σ}

/-- The field that sets a part is given by the members of its name. -/
theorem Shows.gives_iff (h : r.Shows name d part) (hc : r.Takes depth m c) :
    c.1 = some name ↔ m.1.text = .ok name := by
  cases hc with
  | @field key n k f store hk hf hstore =>
    obtain ⟨hmem, hnamed⟩ := exists_name_of_field? hf
    rw [hk]
    rcases h.fields f hmem with ⟨rfl, haliases, -⟩ | ⟨hother, hnotAlias, -⟩
    · obtain rfl := hnamed.resolve_right (by simp [haliases])
      exact iff_of_true rfl rfl
    · refine iff_of_false (fun heq => hother (Option.some.inj heq)) fun heq => ?_
      obtain rfl : k = name := Except.ok.inj heq
      exact hnamed.elim hother hnotAlias
  | kept hk hf | passed hk hf =>
    refine iff_of_false (by simp) fun heq => ?_
    cases hk.symm.trans heq
    simpa [hf] using h.known

theorem Shows.mem_given_iff (h : r.Shows name d part) (htaken : List.Forall₂ (r.Takes depth) members changes) :
    name ∈ given changes ↔ name ∈ keyTexts members := by
  rw [given, List.mem_reverse]
  induction htaken with
  | nil => exact Iff.rfl
  | @cons m c members changes hc _ ih =>
    obtain ⟨k, hk⟩ := hc.named
    have hgives := h.gives_iff hc
    rw [hk, Except.ok.injEq] at hgives
    rw [keyTexts_cons hk, List.mem_cons, ← ih, @eq_comm _ name, ← hgives]
    simp only [List.mem_filterMap, List.mem_cons, exists_eq_or_imp]

theorem nodup_given_middle (hname : c.1 = some name) :
    (given (earlier ++ c :: later)).Nodup ↔
      name ∉ given (earlier ++ later) ∧ (given (earlier ++ later)).Nodup := by
  simp only [given, List.nodup_reverse, List.mem_reverse, List.filterMap_append, List.filterMap_cons_some hname,
    List.nodup_middle, List.nodup_cons]

/-- A change that commutes with those after it may be made last. -/
theorem changed_middle (hcomm : ∀ c' ∈ later, ∀ x, c'.2 (c.2 x) = c.2 (c'.2 x)) :
    changed state (earlier ++ c :: later) = c.2 (changed state (earlier ++ later)) := by
  simp only [changed, List.foldl_append, List.foldl_cons]
  generalize earlier.foldl (fun s change => change.2 s) state = state
  induction later generalizing state with
  | nil => rfl
  | cons c' later ih =>
    rw [List.foldl_cons, List.foldl_cons, hcomm c' List.mem_cons_self]
    exact ih (fun c'' hc'' => hcomm c'' (List.mem_cons_of_mem _ hc'')) _

theorem takes_of_field?_iff {k : String} {f : Field σ} (hk : m.1.text = .ok k) (hf : r.field? k = some f) :
    r.Takes depth m c ↔ ∃ store, f.read depth m.2 = .ok store ∧ (some f.name, store) = c := by
  constructor
  · intro h
    cases h with
    | field hk' hf' hstore =>
      cases hk.symm.trans hk'
      cases hf.symm.trans hf'
      exact ⟨_, hstore, rfl⟩
    | kept hk' hf' | passed hk' hf' =>
      cases hk.symm.trans hk'
      cases hf.symm.trans hf'
  · rintro ⟨store, hstore, rfl⟩
    exact .field hk hf hstore

/-- A part is read from an object that has one member more: the others are read, none of which has its key, and what
this one holds is stored. -/
theorem Orderless.decoder_middle (h : r.Orderless) (hshows : r.Shows name d part) {store : α → σ → σ}
    (hfield : r.field? name = some (.optional name d store)) (hm : m.1.text = .ok name) {start : Rest}
    {ending : ObjectEnd} :
    r.decoder depth (.object start (before ++ m :: after) ending) = .ok state ↔
      name ∉ keyTexts (before ++ after) ∧ ∃ a x, d (depth + 1) m.2 = .ok a ∧
        r.decoder depth (.object start (before ++ after) ending) = .ok x ∧ store a x = state := by
  have htakes : ∀ {c}, r.Takes (depth + 1) m c ↔ ∃ a, d (depth + 1) m.2 = .ok a ∧ (some name, store a) = c := by
    intro c
    rw [takes_of_field?_iff hm hfield]
    constructor
    · rintro ⟨_, hread, rfl⟩
      obtain ⟨a, ha, rfl⟩ := map_eq_ok_iff.1 hread
      exact ⟨a, ha, rfl⟩
    · rintro ⟨a, ha, rfl⟩
      exact ⟨_, map_eq_ok_iff.2 ⟨a, ha, rfl⟩, rfl⟩
  -- what is stored commutes with the changes of all members of other names
  have hcomm : ∀ {a later}, d (depth + 1) m.2 = .ok a → List.Forall₂ (r.Takes (depth + 1)) after later →
      name ∉ keyTexts (before ++ after) → ∀ c' ∈ later, ∀ x, c'.2 (store a x) = store a (c'.2 x) := by
    intro a later ha hlater hfresh c' hc' x
    obtain ⟨m', hm', hc'⟩ := exists_mem_of_forall₂ hlater hc'
    have hkey : m'.1.text ≠ .ok name := fun heq =>
      hfresh (mem_keyTexts (List.mem_append_right before hm') heq)
    refine h.takes_comm hc' (htakes.2 ⟨a, ha, rfl⟩) (hm ▸ hkey) (fun name' hname' hname => ?_) x
    cases hname
    exact hkey ((hshows.gives_iff hc').1 hname')
  simp only [decoder_object_eq_ok_iff h.optional]
  constructor
  · rintro ⟨hdepth, hend, changes, htaken, hnodup, rfl⟩
    obtain ⟨earlier, rest, rfl, hearlier, hrest⟩ := exists_append_of_forall₂ htaken
    obtain ⟨c, later, hc, hlater, rfl⟩ := List.forall₂_cons_left_iff.1 hrest
    obtain ⟨a, ha, rfl⟩ := htakes.1 hc
    have hothers : List.Forall₂ (r.Takes (depth + 1)) (before ++ after) (earlier ++ later) :=
      List.rel_append hearlier hlater
    obtain ⟨hnew, hnodup⟩ := (nodup_given_middle rfl).1 hnodup
    rw [hshows.mem_given_iff hothers] at hnew
    have hlast : changed r.blank (earlier ++ (some name, store a) :: later)
        = store a (changed r.blank (earlier ++ later)) := changed_middle (hcomm ha hlater hnew)
    exact ⟨hnew, a, _, ha, ⟨hdepth, hend, _, hothers, hnodup, rfl⟩, hlast.symm⟩
  · rintro ⟨hnew, a, _, ha, ⟨hdepth, hend, changes, htaken, hnodup, rfl⟩, rfl⟩
    obtain ⟨earlier, later, rfl, hearlier, hlater⟩ := exists_append_of_forall₂ htaken
    exact ⟨hdepth, hend, _, List.rel_append hearlier (.cons (htakes.2 ⟨a, ha, rfl⟩) hlater),
      (nodup_given_middle rfl).2 ⟨mt (hshows.mem_given_iff htaken).1 hnew, hnodup⟩,
      changed_middle (hcomm ha hlater hnew)⟩

/-! ## Lists -/

variable {index : Nat} {fields : List (Field σ)} {ending : ListEnd} {nodes : List Node} {state' : σ}

theorem decoder_array_eq_ok_iff {start : Rest} (hkeep : r.keep = none) :
    r.decoder depth (.array start nodes ending) = .ok state ↔
      depth < maxNesting ∧ r.elements (depth + 1) ending 0 r.blank r.fields nodes = .ok state := by
  rw [decoder, if_neg (by simp [hkeep]), nested_eq_ok_iff]

theorem elements_nil_eq_ok_iff (hoptional : ∀ f ∈ fields, f.required = false) :
    r.elements depth ending index state fields [] = .ok state' ↔ ending.check = .ok () ∧ state = state' := by
  cases hend : ending.check with
  | ok u => rw [Orderless.elements_nil hoptional hend, Except.ok.injEq, eq_self, true_and]
  | error f =>
    cases ending with
    | broken b full => cases fields <;> simp [elements, ListEnd.check, bind, Except.bind]
    | closed | unreached => cases hend

theorem elements_cons_eq_ok_iff {f : Field σ} {n : Node} :
    r.elements depth ending index state (f :: fields) (n :: nodes) = .ok state' ↔
      ∃ store, f.read depth n = .ok store ∧
        r.elements depth ending (index + 1) (store state) fields nodes = .ok state' := by
  simp only [elements, bind_eq_ok_iff, inside_eq_ok_iff]

/-- A change that commutes with what the fields store may be made before the items of a list are read. -/
theorem elements_changed (change : σ → σ) (hoptional : ∀ f ∈ fields, f.required = false)
    (hcomm : ∀ f ∈ fields, ∀ depth n store, f.read depth n = .ok store →
      ∀ x, store (change x) = change (store x))
    (h : r.elements depth ending index state fields nodes = .ok state') :
    r.elements depth ending index (change state) fields nodes = .ok (change state') := by
  induction fields generalizing index state nodes with
  | nil =>
    cases nodes with
    | nil =>
      rw [elements_nil_eq_ok_iff hoptional] at h ⊢
      exact ⟨h.1, congrArg change h.2⟩
    | cons => cases h
  | cons f fields ih =>
    cases nodes with
    | nil =>
      rw [elements_nil_eq_ok_iff hoptional] at h ⊢
      exact ⟨h.1, congrArg change h.2⟩
    | cons n nodes =>
      obtain ⟨store, hstore, hrest⟩ := elements_cons_eq_ok_iff.1 h
      have hrest := ih (fun g hg => hoptional g (List.mem_cons_of_mem _ hg))
        (fun g hg => hcomm g (List.mem_cons_of_mem _ hg)) hrest
      rw [← hcomm f List.mem_cons_self _ _ _ hstore] at hrest
      exact elements_cons_eq_ok_iff.2 ⟨store, hstore, hrest⟩

end Record

/-! ## One member more -/

/-- A member of a name, without places. -/
def bareMember (name : String) (n : Node) : Key × Node := (⟨[], .ok name, []⟩, n)

/-- An object of some members, without places. -/
def bareObject (members : List (Key × Node)) : Node := .object [] members (.closed [])

theorem decoder_bareObject_nil {σ : Type} {r : Record σ} {depth : Nat}
    (hoptional : ∀ f ∈ r.fields, f.required = false) (hdepth : depth < maxNesting) :
    r.decoder depth (bareObject []) = .ok r.blank :=
  (Record.decoder_object_eq_ok_iff hoptional).2 ⟨hdepth, rfl, [], .nil, List.nodup_nil, rfl⟩

/-- A record that keeps all members is read from objects only. -/
theorem members?_isSome_of_keep {σ : Type} {r : Record σ} {depth : Nat} {n : Node} {state : σ}
    (hkeep : r.keep.isSome) (hread : r.decoder depth n = .ok state) : n.members?.isSome := by
  cases n with
  | object => rfl
  | array start nodes ending =>
    rw [Record.decoder, if_pos hkeep] at hread
    cases hread
  | _ => cases hread

/-- An object has one member more than another one, which has none of this name. -/
inductive Gains (name : String) (value : Node) : Node → Node → Prop
  | intro {start before after ending} (fresh : name ∉ keyTexts (before ++ after)) :
    Gains name value (.object start (before ++ after) ending)
      (.object start (before ++ bareMember name value :: after) ending)

namespace Gains

variable {α σ : Type} {r : Record σ} {name : String} {d : Decoder α} {part : σ → α} {store : α → σ → σ} {depth : Nat}
  {value n n' : Node} {a : α} {state : σ}

/-- Without the member the part that it sets is as in the blank record. -/
theorem part_eq_blank (gains : Gains name value n n') (hshows : r.Shows name d part)
    (hoptional : ∀ f ∈ r.fields, f.required = false) (hread : r.decoder depth n = .ok state) :
    part state = part r.blank := by
  obtain ⟨hfresh⟩ := gains
  obtain ⟨n', hn', -⟩ | ⟨-, hblank⟩ := hshows.of_read hoptional rfl hread
  · cases (lastMember?_eq_none_iff.2 hfresh).symm.trans hn'
  · exact hblank

/-- With the member the record is read as without it, and what the member holds is stored. -/
theorem decoder (gains : Gains name value n n') (horderless : r.Orderless) (hshows : r.Shows name d part)
    (hfield : r.field? name = some (.optional name d store)) (hvalue : d (depth + 1) value = .ok a)
    (hread : r.decoder depth n = .ok state) : r.decoder depth n' = .ok (store a state) := by
  obtain ⟨hfresh⟩ := gains
  exact (horderless.decoder_middle hshows hfield rfl).2 ⟨hfresh, a, state, hvalue, hread, rfl⟩

/-- A member can be added to every object that has none of its name. -/
theorem exists_of_under? (hobject : n.members?.isSome) (habsent : n.under? name = none) :
    ∃ n', Gains name value n n' := by
  cases n with
  | object start members ending =>
    exact ⟨_, @intro name value start [] members ending (lastMember?_eq_none_iff.1 habsent)⟩
  | _ => cases hobject

end Gains

end Provenance.Json
