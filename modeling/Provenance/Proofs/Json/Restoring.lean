import Provenance.Proofs.Json.FreeForm
import Provenance.Proofs.Json.Parts

/-!
# Reading what was written

A decoder restores what an encoder writes (`Decoder.Restores`). A record is restored from an object that has a
member for each of its parts that is not as in the blank record (`Record.decodeText_of_entries`).
-/

namespace Provenance.Json

variable {α β σ : Type} {depth : Nat}

/-- A decoder reads a thing from whatever node has the value that is written for it. -/
def Decoder.Restores (d : Decoder α) (a : α) (v : Value) : Prop :=
  ∀ ⦃depth n⦄, Value.ofNode depth n = .ok v → d depth n = .ok a

namespace Decoder.Restores

theorem value (v : Value) : Decoder.value.Restores v v := fun _ _ h => h

theorem string (s : String) : Decoder.string.Restores s (.string s) := by
  intro depth n h
  cases ofNode_eq_ok_iff.1 h
  rfl

theorem integer {name : String} {allowed : Int → Bool} {k : Int} (h : allowed k = true) :
    (Decoder.integer name allowed).Restores k (.integer k) := by
  intro depth n hn
  cases ofNode_eq_ok_iff.1 hn
  rw [Decoder.integer, if_pos h]

theorem int64 {k : Int} (h : isSigned k = true) : Decoder.int64.Restores k (.integer k) := integer h

theorem length {n : Nat} (h : isUnsigned n = true) : Decoder.length.Restores n (.integer n) := by
  intro depth node hnode
  rw [Decoder.length, integer h hnode]
  rfl

/-- A value that is there is not `null`. -/
theorem option {d : Decoder α} {a : α} {v : Value} (h : d.Restores a v) (hnull : v.isNull = false) :
    (Decoder.option d).Restores (some a) v := by
  intro depth n hn
  have hread := h hn
  cases ofNode_eq_ok_iff.1 hn with
  | null => cases hnull
  | _ => exact map_eq_ok_iff.2 ⟨a, hread, rfl⟩

theorem list {d : Decoder α} {as : List α} {vs : List Value} (h : List.Forall₂ d.Restores as vs) :
    (Decoder.list d).Restores as (.array vs) := by
  intro depth n hn
  cases ofNode_eq_ok_iff.1 hn with
  | @array _ nodes _ _ shallow items ended =>
    rw [Decoder.list, nested_eq_ok_iff]
    refine ⟨shallow, bind_eq_ok_iff.2 ⟨as, Decoder.items_eq_ok_iff.2 ?_, bind_eq_ok_iff.2 ⟨_, ended, rfl⟩⟩⟩
    clear hn
    induction h generalizing nodes with
    | nil =>
      cases items
      exact .nil
    | cons ha _ ih =>
      cases items with
      | cons hn items => exact .cons (ha hn) (ih items)

/-- The name of a variant is that of no other. -/
theorem variant {known : List (String × α)} {name : String} {a : α}
    (h : known.find? (fun entry => entry.1 = name) = some (name, a)) :
    (Decoder.variant known).Restores a (.string name) := by
  intro depth n hn
  cases ofNode_eq_ok_iff.1 hn with
  | string =>
    show nameOf known _ name = .ok a
    rw [nameOf, h]

end Decoder.Restores

/-! ## Records -/

theorem lastMember?_of_entries {members : List (Key × Node)} {ms : List (String × Value)} {key : String}
    (hheld : List.Forall₂ (HasEntry depth) members ms) :
    match lastMember? key members with
    | some n => ∃ v, (key, v) ∈ ms ∧ Value.ofNode depth n = .ok v
    | none => ∀ v, (key, v) ∉ ms := by
  induction hheld with
  | nil => simp [lastMember?]
  | @cons m e members ms hm _ ih =>
    rw [lastMember?_cons]
    cases hlast : lastMember? key members with
    | some n =>
      rw [hlast] at ih
      obtain ⟨v, hv, hn⟩ := ih
      exact ⟨v, List.mem_cons_of_mem _ hv, hn⟩
    | none =>
      rw [hlast] at ih
      rw [hm.1]
      by_cases hkey : e.1 = key
      · subst hkey
        simpa using ⟨e.2, .inl rfl, hm.2⟩
      · have hother : some e.1 ≠ some key := fun h => hkey (Option.some.inj h)
        rw [Except.toOption, if_neg hother]
        intro v hv
        rcases List.mem_cons.1 hv with rfl | hv
        · exact hkey rfl
        · exact ih v hv

namespace Record

variable {r : Record σ}

/-- What is written for a record holds a part of it: where there is a member of a name, the part is read from
it, and else the part is as in the blank record. -/
structure Writes (r : Record σ) (ms : List (String × Value)) (name : String) (d : Decoder α)
    (part : σ → α) (a : α) : Prop where
  shows : r.Shows name d part
  restores : ∀ v, (name, v) ∈ ms → d.Restores a v
  blank : (∀ v, (name, v) ∉ ms) → part r.blank = a

/-- A part for which a member is always written. -/
theorem Writes.of_member {ms : List (String × Value)} {name : String} {d : Decoder α} {part : σ → α}
    {a : α} {v : Value} (hshows : r.Shows name d part) (hmem : ∀ v', (name, v') ∈ ms ↔ v' = v)
    (hrestores : d.Restores a v) : r.Writes ms name d part a where
  shows := hshows
  restores v' hv' := (hmem v').1 hv' ▸ hrestores
  blank hnone := absurd ((hmem v).2 rfl) (hnone v)

/-- A part for which a member is written if it has a value. -/
theorem Writes.of_option {ms : List (String × Value)} {name : String} {d : Decoder (Option α)}
    {part : σ → Option α} {a : Option α} {enc : α → Value} (hshows : r.Shows name d part)
    (hmem : ∀ v, (name, v) ∈ ms ↔ ∃ b, a = some b ∧ v = enc b)
    (hrestores : ∀ b, a = some b → d.Restores (some b) (enc b)) (hblank : part r.blank = none) :
    r.Writes ms name d part a where
  shows := hshows
  restores v hv := by
    obtain ⟨b, rfl, rfl⟩ := (hmem v).1 hv
    exact hrestores b rfl
  blank hnone := by
    cases a with
    | none => exact hblank
    | some b => exact absurd ((hmem _).2 ⟨b, rfl, rfl⟩) (hnone _)

/-- A part that was written is restored. -/
theorem Writes.part_changed {ms : List (String × Value)} {name : String} {d : Decoder α} {part : σ → α}
    {a : α} (h : r.Writes ms name d part a) {members : List (Key × Node)}
    {changes : List (Option String × (σ → σ))} (htaken : List.Forall₂ (r.Takes depth) members changes)
    (hheld : List.Forall₂ (HasEntry depth) members ms) : part (changed r.blank changes) = a := by
  have hpart := @Shows.part_changed _ _ _ _ _ _ r.blank _ _ _ h.shows htaken
  have hlast := @lastMember?_of_entries depth members ms name hheld
  cases hfound : lastMember? name members with
  | some n =>
    rw [hfound] at hpart hlast
    obtain ⟨v, hv, hn⟩ := hlast
    exact Except.ok.inj (hpart.symm.trans (h.restores v hv hn))
  | none =>
    rw [hfound] at hpart hlast
    exact hpart.trans (h.blank hlast)

/-- A member that is written for a field of its name, and from which this field can be read. -/
def Accepts (r : Record σ) (m : String × Value) : Prop :=
  ∃ f, r.field? m.1 = some f ∧ f.name = m.1 ∧
    ∀ ⦃depth n⦄, Value.ofNode depth n = .ok m.2 → ∃ store, f.read depth n = .ok store

theorem accepts_of_restores {f : Field σ} {d : Decoder α} {store : α → σ → σ} {name : String} {a : α}
    {v : Value} (hfield : r.field? name = some f) (hname : f.name = name) (hstores : f.Stores d store)
    (h : d.Restores a v) : r.Accepts (name, v) := by
  refine ⟨f, hfield, hname, fun depth n hn => ⟨store a, ?_⟩⟩
  rw [hstores depth n, h hn]
  rfl

/-- The members of an object are taken if each is for a field of its own. -/
theorem exists_changes {ms : List (String × Value)} (haccepts : ∀ m ∈ ms, r.Accepts m)
    {members : List (Key × Node)} (hheld : List.Forall₂ (HasEntry depth) members ms) :
    ∃ changes, List.Forall₂ (r.Takes depth) members changes ∧
      given changes = (Dictionary.keys ms).reverse := by
  induction hheld with
  | nil => exact ⟨[], .nil, rfl⟩
  | @cons m e members ms hm _ ih =>
    obtain ⟨changes, htaken, hgiven⟩ := ih fun m hm => haccepts m (List.mem_cons_of_mem _ hm)
    obtain ⟨f, hf, hname, hread⟩ := haccepts e List.mem_cons_self
    obtain ⟨store, hstore⟩ := hread hm.2
    refine ⟨(some f.name, store) :: changes, .cons (.field hm.1 hf hstore) htaken, ?_⟩
    have hcons := @given_cons _ [] (some f.name, store) changes
    simp only [List.append_nil, Option.toList_some] at hcons
    rw [hcons, hgiven, hname]
    simp [Dictionary.keys]

/-- An object with a member for each necessary field, and no field twice, is read. -/
theorem decoder_of_entries {ms : List (String × Value)} (haccepts : ∀ m ∈ ms, r.Accepts m)
    (hkeys : (Dictionary.keys ms).Nodup)
    (hrequired : ∀ f ∈ r.fields, f.required = true → f.name ∈ Dictionary.keys ms)
    {start stop : Rest} {members : List (Key × Node)} (hdepth : depth < maxNesting)
    (hheld : List.Forall₂ (HasEntry (depth + 1)) members ms) :
    ∃ changes, List.Forall₂ (r.Takes (depth + 1)) members changes ∧
      r.decoder depth (.object start members (.closed stop)) = .ok (changed r.blank changes) := by
  obtain ⟨changes, htaken, hgiven⟩ := exists_changes haccepts hheld
  have hmembers : r.members (depth + 1) [] r.blank members
      = .ok ((Dictionary.keys ms).reverse, changed r.blank changes) :=
    (members_eq_ok_iff List.nodup_nil).2
      ⟨changes, htaken, (List.append_nil _).trans hgiven, List.nodup_reverse.2 hkeys, rfl⟩
  have hmissing : r.missing? (Dictionary.keys ms).reverse = none := by
    refine List.find?_eq_none.2 fun f hf => ?_
    cases hneeded : f.required with
    | false => simp
    | true => simpa using hrequired f hf hneeded
  refine ⟨changes, htaken, ?_⟩
  rw [decoder, nested_eq_ok_iff]
  refine ⟨hdepth, bind_eq_ok_iff.2 ⟨_, hmembers, ?_⟩⟩
  dsimp only
  rw [hmissing]
  rfl

/-- A record that is written as an object is read from its text, member by member. -/
theorem decodeText_of_entries {ms : List (String × Value)} {levels : Nat} (hne : ms ≠ [])
    (hfree : ∀ m ∈ ms, m.2.IsFreeForm levels) (hlevels : levels < maxNesting)
    (haccepts : ∀ m ∈ ms, r.Accepts m) (hkeys : (Dictionary.keys ms).Nodup)
    (hrequired : ∀ f ∈ r.fields, f.required = true → f.name ∈ Dictionary.keys ms) :
    ∃ members changes, List.Forall₂ (HasEntry 1) members ms ∧ List.Forall₂ (r.Takes 1) members changes ∧
      decodeText r.decoder (Value.object ms).encode = .ok (changed r.blank changes) := by
  obtain ⟨start, members, stop, hnode, hheld, hwhole⟩ := ofText_object hne hfree hlevels
  obtain ⟨changes, htaken, hdecoded⟩ :=
    @decoder_of_entries _ 0 r ms haccepts hkeys hrequired start stop members (by decide) hheld
  exact ⟨members, changes, hheld, htaken, decodeText_eq_ok_iff.2 ⟨hnode ▸ hdecoded, hwhole⟩⟩

end Record

end Provenance.Json
