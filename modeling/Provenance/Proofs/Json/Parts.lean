import Provenance.Proofs.Json.Members
import Provenance.Proofs.Json.Records

/-!
# The parts of a record

What a record holds once the members of an object were taken: a part that one field sets is what was read from the
member of that name (`Record.Shows`), and the kept members are those of all other names (`Record.Keeps`).
-/

namespace Provenance.Json

variable {α σ : Type}

/-- A field leaves a part of the record as it is. -/
def Field.Leaves (f : Field σ) (part : σ → α) : Prop :=
  ∀ ⦃depth n store⦄, f.read depth n = .ok store → ∀ x, part (store x) = part x

/-- A field sets a part of the record to what a decoder reads. -/
def Field.Sets (f : Field σ) (d : Decoder α) (part : σ → α) : Prop :=
  ∀ ⦃depth n store⦄, f.read depth n = .ok store → ∀ x, d depth n = .ok (part (store x))

namespace Field

variable {β : Type} {f : Field σ} {name : String} {aliases : List String} {required : Bool}
  {d : Decoder α} {d' : Decoder β} {store : α → σ → σ} {store' : β → σ → σ} {part : σ → α}

theorem Stores.leaves (hf : f.Stores d' store') (h : ∀ b x, part (store' b x) = part x) :
    f.Leaves part := by
  intro depth n s hs x
  obtain ⟨b, -, rfl⟩ := map_eq_ok_iff.1 (hf depth n ▸ hs)
  exact h b x

theorem Stores.sets (hf : f.Stores d store) (h : ∀ a x, part (store a x) = a) : f.Sets d part := by
  intro depth n s hs x
  obtain ⟨a, ha, rfl⟩ := map_eq_ok_iff.1 (hf depth n ▸ hs)
  rw [ha, h a x]

@[simp] theorem leaves_optional (h : ∀ b x, part (store' b x) = part x) :
    (optional name d' store').Leaves part :=
  stores_optional.leaves h

@[simp] theorem sets_optional (h : ∀ a x, part (store a x) = a) : (optional name d store).Sets d part :=
  stores_optional.sets h

/-- That a field has other names or has to be there has nothing to do with what it stores. -/
@[simp] theorem leaves_mk : (⟨name, aliases, required, f.read⟩ : Field σ).Leaves part ↔ f.Leaves part := .rfl

@[simp] theorem sets_mk : (⟨name, aliases, required, f.read⟩ : Field σ).Sets d part ↔ f.Sets d part := .rfl

end Field

namespace Record

variable {r : Record σ} {depth : Nat} {m : Key × Node} {c : Option String × (σ → σ)}
  {members : List (Key × Node)} {changes : List (Option String × (σ → σ))} {state : σ}

theorem exists_name_of_field? {k : String} {f : Field σ} (h : r.field? k = some f) :
    f ∈ r.fields ∧ (f.name = k ∨ k ∈ f.aliases) := by
  refine ⟨List.mem_of_find?_eq_some h, ?_⟩
  simpa using List.find?_some h

theorem field?_eq_none_iff {k : String} :
    r.field? k = none ↔ ∀ f ∈ r.fields, f.name ≠ k ∧ k ∉ f.aliases := by
  simp [field?]

/-! ## A part that a field sets -/

/-- A part of a record is set by the field of one name only. -/
structure Shows (r : Record σ) (name : String) (d : Decoder α) (part : σ → α) : Prop where
  known : (r.field? name).isSome
  fields : ∀ f ∈ r.fields, (f.name = name ∧ f.aliases = [] ∧ f.Sets d part) ∨
    (f.name ≠ name ∧ name ∉ f.aliases ∧ f.Leaves part)
  kept : ∀ keep ∈ r.keep, ∀ k v x, part (keep k v x) = part x

namespace Shows

variable {name : String} {d : Decoder α} {part : σ → α}

theorem of_takes (h : r.Shows name d part) (hc : r.Takes depth m c) :
    (m.1.text.toOption = some name ∧ ∀ x, d depth m.2 = .ok (part (c.2 x))) ∨
      (m.1.text.toOption ≠ some name ∧ ∀ x, part (c.2 x) = part x) := by
  have hunknown : ∀ {k}, r.field? k = none → k ≠ name := by
    rintro k hk rfl
    exact absurd h.known (by simp [hk])
  cases hc with
  | @field key n k f store hk hf hstore =>
    rw [hk]
    obtain ⟨hmem, hname⟩ := exists_name_of_field? hf
    rcases h.fields f hmem with ⟨hown, haliases, hsets⟩ | ⟨hother, haliases, hleaves⟩
    · rw [haliases, hown] at hname
      obtain rfl := hname.resolve_right List.not_mem_nil
      exact .inl ⟨rfl, hsets hstore⟩
    · refine .inr ⟨?_, hleaves hstore⟩
      rintro ⟨⟩
      exact hname.elim hother haliases
  | kept hk hf hkeep hv =>
    rw [hk]
    exact .inr ⟨fun heq => hunknown hf (Option.some.inj heq), h.kept _ hkeep _ _⟩
  | passed hk hf hkeep hpass =>
    rw [hk]
    exact .inr ⟨fun heq => hunknown hf (Option.some.inj heq), fun _ => rfl⟩

/-- The part holds what is read from the member of its name. -/
theorem part_changed (h : r.Shows name d part) (htaken : List.Forall₂ (r.Takes depth) members changes) :
    match lastMember? name members with
    | some n => d depth n = .ok (part (changed state changes))
    | none => part (changed state changes) = part state := by
  induction htaken generalizing state with
  | nil => rfl
  | @cons m c members changes hc _ ih =>
    have ih := @ih (c.2 state)
    -- a later member of the name would count instead of this one
    rw [lastMember?_cons]
    cases hlast : lastMember? name members with
    | some n =>
      rw [hlast] at ih
      exact ih
    | none =>
      rw [hlast] at ih
      show match (if m.1.text.toOption = some name then some m.2 else none) with
        | some n => d depth n = .ok (part (changed (c.2 state) changes))
        | none => part (changed (c.2 state) changes) = part state
      rcases h.of_takes hc with ⟨hname, hset⟩ | ⟨hname, hleft⟩
      · rw [if_pos hname, ih]
        exact hset state
      · rw [if_neg hname]
        exact ih.trans (hleft state)

theorem of_read (h : r.Shows name d part) (hoptional : ∀ f ∈ r.fields, f.required = false) {n : Node}
    (hn : n.members?.isSome) (hstate : r.decoder depth n = .ok state) :
    (∃ n', n.under? name = some n' ∧ d (depth + 1) n' = .ok (part state)) ∨
      (n.under? name = none ∧ part state = part r.blank) := by
  cases n with
  | object start members ending =>
    obtain ⟨-, -, changes, htaken, -, rfl⟩ := (decoder_object_eq_ok_iff hoptional).1 hstate
    have hpart := @part_changed _ _ _ _ _ _ r.blank _ _ _ h htaken
    show (∃ n', lastMember? name members = some n' ∧ _) ∨ (lastMember? name members = none ∧ _)
    cases hlast : lastMember? name members with
    | some n' =>
      rw [hlast] at hpart
      exact .inl ⟨n', rfl, hpart⟩
    | none =>
      rw [hlast] at hpart
      exact .inr ⟨rfl, hpart⟩
  | _ => cases hn

/-- The part determines the value of the member of its name. -/
theorem value_of_read (h : r.Shows name d part) (hoptional : ∀ f ∈ r.fields, f.required = false)
    {enc : α → Value} (henc : d.Inverts enc) {n : Node} {ms : List (String × Value)}
    (hvalue : Value.ofNode depth n = .ok (.object ms)) (hstate : r.decoder depth n = .ok state) :
    Dictionary.get? name ms = some (enc (part state)) ∨
      (Dictionary.get? name ms = none ∧ part state = part r.blank) := by
  rw [get?_of_ofNode hvalue]
  obtain ⟨n', hn', hd⟩ | ⟨hnone, hblank⟩ :=
    h.of_read hoptional (members?_isSome_of_ofNode hvalue) hstate
  · exact .inl (by simp [hn', henc hd])
  · exact .inr ⟨by simp [hnone], hblank⟩

end Shows

/-! ## The kept members -/

/-- A part of a record is where the members of unknown names are kept. -/
structure Keeps (r : Record σ) (part : σ → List (String × Value)) : Prop where
  keeps : ∃ keep, r.keep = some keep ∧ ∀ k v x, part (keep k v x) = Dictionary.insert k v (part x)
  fields : ∀ f ∈ r.fields, f.Leaves part

namespace Keeps

variable {part : σ → List (String × Value)}

theorem of_takes (h : r.Keeps part) (hc : r.Takes depth m c) :
    ∃ k, m.1.text = .ok k ∧ (((r.field? k).isSome ∧ ∀ x, part (c.2 x) = part x) ∨
      (r.field? k = none ∧ ∃ v, Value.ofNode depth m.2 = .ok v ∧
        ∀ x, part (c.2 x) = Dictionary.insert k v (part x))) := by
  obtain ⟨keep, hkeep, hinsert⟩ := h.keeps
  cases hc with
  | @field key n k f store hk hf hstore =>
    exact ⟨k, hk, .inl ⟨by rw [hf]; rfl, h.fields f (exists_name_of_field? hf).1 hstore⟩⟩
  | @kept key n k keep' v hk hf hkeep' hv =>
    cases hkeep.symm.trans hkeep'
    exact ⟨k, hk, .inr ⟨hf, v, hv, hinsert k v⟩⟩
  | passed hk hf hnone => cases hkeep.symm.trans hnone

/-- Under a name that is no field's the value of the member is kept. -/
theorem get?_changed (h : r.Keeps part) (htaken : List.Forall₂ (r.Takes depth) members changes) {k : String}
    (hk : r.field? k = none) :
    Dictionary.get? k (part (changed state changes))
      = ((lastMember? k members).bind fun n => (Value.ofNode depth n).toOption).or
        (Dictionary.get? k (part state)) := by
  induction htaken generalizing state with
  | nil => rfl
  | @cons m c members changes hc hrest ih =>
    refine (@ih (c.2 state)).trans ?_
    rw [lastMember?_cons]
    cases hlast : lastMember? k members with
    | some n =>
      obtain ⟨m', hm', hname, rfl⟩ := exists_mem_of_lastMember? hlast
      obtain ⟨c', -, hc'⟩ := exists_mem_of_forall₂ hrest.flip hm'
      obtain ⟨k', hk', ⟨hknown, -⟩ | ⟨-, v, hv, -⟩⟩ := h.of_takes hc'
      · rw [hk'] at hname
        cases hname
        rw [hk] at hknown
        cases hknown
      · simp [hv]
    | none =>
      obtain ⟨k', hk', ⟨hknown, hleft⟩ | ⟨-, v, hv, hinsert⟩⟩ := h.of_takes hc
      · have hname : m.1.text.toOption ≠ some k := by
          rw [hk']
          rintro ⟨⟩
          rw [hk] at hknown
          cases hknown
        rw [if_neg hname, hleft]
        rfl
      · rw [hinsert, Dictionary.get?_insert, hk']
        by_cases hkey : k = k'
        · subst hkey
          simp [hv]
        · simp [hkey, Ne.symm hkey]

theorem isSorted_changed (h : r.Keeps part) (htaken : List.Forall₂ (r.Takes depth) members changes)
    (hsorted : Dictionary.IsSorted (part state)) :
    Dictionary.IsSorted (part (changed state changes)) := by
  induction htaken generalizing state with
  | nil => exact hsorted
  | @cons m c members changes hc _ ih =>
    refine @ih (c.2 state) ?_
    obtain ⟨k, -, ⟨-, hleft⟩ | ⟨-, v, -, hinsert⟩⟩ := h.of_takes hc
    · rw [hleft]
      exact hsorted
    · rw [hinsert]
      exact Dictionary.isSorted_insert hsorted

/-- Nothing is kept under the name of a field. -/
theorem field?_of_mem_changed (h : r.Keeps part)
    (htaken : List.Forall₂ (r.Takes depth) members changes)
    (hstate : ∀ k ∈ Dictionary.keys (part state), r.field? k = none) :
    ∀ k ∈ Dictionary.keys (part (changed state changes)), r.field? k = none := by
  induction htaken generalizing state with
  | nil => exact hstate
  | @cons m c members changes hc _ ih =>
    refine @ih (c.2 state) ?_
    obtain ⟨k, -, ⟨-, hleft⟩ | ⟨hunknown, v, -, hinsert⟩⟩ := h.of_takes hc
    · rw [hleft]
      exact hstate
    · rw [hinsert]
      intro k' hk'
      rcases Dictionary.keys_insert hk' with rfl | hk'
      · exact hunknown
      · exact hstate k' hk'

theorem of_read (h : r.Keeps part) (hoptional : ∀ f ∈ r.fields, f.required = false)
    (hblank : part r.blank = []) {n : Node} (hn : n.members?.isSome)
    (hstate : r.decoder depth n = .ok state) :
    Dictionary.IsSorted (part state) ∧ (∀ k ∈ Dictionary.keys (part state), r.field? k = none) ∧
      ∀ k, r.field? k = none → Dictionary.get? k (part state)
        = (n.under? k).bind fun n' => (Value.ofNode (depth + 1) n').toOption := by
  cases n with
  | object start members ending =>
    obtain ⟨-, -, changes, htaken, -, rfl⟩ := (decoder_object_eq_ok_iff hoptional).1 hstate
    refine ⟨h.isSorted_changed htaken (hblank ▸ .nil), h.field?_of_mem_changed htaken ?_, fun k hk => ?_⟩
    · simp [hblank, Dictionary.keys]
    · rw [h.get?_changed htaken hk, hblank, Node.under?]
      simp [Node.members?, Dictionary.get?]
  | _ => cases hn

end Keeps

/-! ## Values of records -/

/-- A record that keeps all members is read from what has a value. -/
theorem acceptsValues (hoptional : ∀ f ∈ r.fields, f.required = false) (hkeep : r.keep.isSome)
    (hfields : ∀ f ∈ r.fields, f.read.AcceptsValues) : r.decoder.AcceptsValues := by
  intro depth n x hx
  cases n with
  | object start members ending =>
    obtain ⟨hdepth, hend, changes, htaken, -, rfl⟩ := (decoder_object_eq_ok_iff hoptional).1 hx
    have hheld : ∃ entries, List.Forall₂ (HasEntry (depth + 1)) members entries := by
      clear hx
      induction htaken with
      | nil => exact ⟨[], .nil⟩
      | @cons m c members changes hc _ ih =>
        obtain ⟨entries, hentries⟩ := ih
        have hvalue : ∃ k v, m.1.text = .ok k ∧ Value.ofNode (depth + 1) m.2 = .ok v := by
          cases hc with
          | field hk hf hstore =>
            obtain ⟨v, hv⟩ := hfields _ (exists_name_of_field? hf).1 hstore
            exact ⟨_, v, hk, hv⟩
          | kept hk _ _ hv => exact ⟨_, _, hk, hv⟩
          | passed _ _ hnone => rw [hnone] at hkeep; cases hkeep
        obtain ⟨k, v, hk, hv⟩ := hvalue
        exact ⟨(k, v) :: entries, .cons ⟨hk, hv⟩ hentries⟩
    obtain ⟨entries, hentries⟩ := hheld
    exact ⟨_, ofNode_eq_ok_iff.2 (.object hdepth hentries rfl hend)⟩
  | array start nodes ending =>
    rw [decoder, if_pos hkeep] at hx
    cases hx
  | _ => cases hx

end Record

end Provenance.Json
