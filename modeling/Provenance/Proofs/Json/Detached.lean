import Provenance.Json.Detached
import Provenance.Proofs.Except
import Provenance.Proofs.Json.Insertion
import Provenance.Proofs.Json.RoundTrip

/-!
# Records from values

A record can be decoded from a value that was read before: from an object by the names of its fields, from a list
by their places. A part that one field sets is what is decoded from the member of this name or the item at this
place (`Record.Shows.of_value`).
-/

namespace Provenance.Json

variable {α σ : Type} {depth index place : Nat}

/-- What stands in a value for a field: the member of its name, or the item at its place. -/
def Value.part? (name : String) (place : Nat) : Value → Option Value
  | .object members => Dictionary.get? name members
  | .array items => items[place]?
  | _ => none

/-! ## Nodes of values -/

theorem ofValues_eq_map (vs : List Value) : Node.ofValues vs = vs.map Node.ofValue := by
  induction vs with
  | nil => rfl
  | cons v vs ih => rw [Node.ofValues, ih, List.map_cons]

theorem ofMembers_eq_map (ms : List (String × Value)) :
    Node.ofMembers ms = ms.map fun m => (⟨[], .ok m.1, []⟩, Node.ofValue m.2) := by
  induction ms with
  | nil => rfl
  | cons m ms ih => rw [Node.ofMembers, ih, List.map_cons]

/-- Of an object in order of key the member under a key is the last one. -/
theorem under?_ofValue {key : String} {ms : List (String × Value)} (h : Dictionary.IsSorted ms) :
    (Node.ofValue (.object ms)).under? key = (Dictionary.get? key ms).map Node.ofValue := by
  have hlast : lastMember? key (Node.ofMembers ms) = (Dictionary.get? key ms.reverse).map Node.ofValue := by
    rw [lastMember?, ofMembers_eq_map, ← List.map_reverse, List.find?_map, Option.map_map, Dictionary.get?,
      Option.map_map]
    simp only [Except.toOption, Option.some.injEq, Function.comp_def]
  rw [← Dictionary.get?_reverse_of_isSorted h]
  exact hlast

/-! ## What a value is decoded as -/

section
variable {v w : Value}

theorem decodeValue_eq_ok_iff {d : Decoder α} {a : α} :
    decodeValue d v = .ok a ↔ d 0 (Node.ofValue v) = .ok a := mapError_eq_ok_iff

theorem IsRead.part? {name : String} {place : Nat} (h : IsRead depth v) (hw : v.part? name place = some w) :
    IsRead (depth + 1) w := by
  cases v with
  | object ms => exact h.members.2.2 _ (Dictionary.mem_of_get? hw)
  | array items => exact h.items.2 _ (List.mem_of_getElem? hw)
  | _ => cases hw

theorem eq_string_of_ofValue {s : String} (h : Decoder.string depth (Node.ofValue v) = .ok s) :
    v = .string s := by
  cases v with
  | string t =>
    have ht : t = s := Except.ok.inj h
    rw [ht]
  | _ => cases h

theorem eq_integer_of_ofValue {n : Int} (h : Decoder.int64 depth (Node.ofValue v) = .ok n) :
    v = .integer n := by
  cases v with
  | number k =>
    cases k with
    | integer k =>
      rw [Node.ofValue, Decoder.int64, Decoder.integer] at h
      split at h
      · rw [Except.ok.inj h]
        rfl
      · cases h
    | double x => cases h
  | _ => cases h

theorem option_ofValue {d : Decoder α} {a : Option α}
    (h : Decoder.option d depth (Node.ofValue v) = .ok a) :
    (v = .null ∧ a = none) ∨ ∃ b, a = some b ∧ d depth (Node.ofValue v) = .ok b := by
  cases v with
  | null => exact .inl ⟨rfl, (Except.ok.inj h).symm⟩
  | _ =>
    obtain ⟨b, hb, rfl⟩ := map_eq_ok_iff.1 h
    exact .inr ⟨b, rfl, hb⟩

end

/-! ## Items of a list -/

namespace Record

variable {r : Record σ} {name : String} {d : Decoder α} {part : σ → α} {state state' : σ}
  {fields : List (Field σ)} {nodes : List Node} {ending : ListEnd}

/-- A part that none of the fields sets stays as it was. -/
theorem part_elements_of_leaves (hoptional : ∀ f ∈ fields, f.required = false)
    (hleaves : ∀ f ∈ fields, f.Leaves part)
    (hread : r.elements depth ending index state fields nodes = .ok state') : part state' = part state := by
  induction fields generalizing index state nodes with
  | nil =>
    cases nodes with
    | nil => rw [(elements_nil_eq_ok_iff hoptional).1 hread |>.2]
    | cons n nodes => cases hread
  | cons f fields ih =>
    cases nodes with
    | nil => rw [(elements_nil_eq_ok_iff hoptional).1 hread |>.2]
    | cons n nodes =>
      obtain ⟨store, hstore, hrest⟩ := elements_cons_eq_ok_iff.1 hread
      have hlater : part state' = part (store state) :=
        ih (fun g hg => hoptional g (List.mem_cons_of_mem _ hg))
          (fun g hg => hleaves g (List.mem_cons_of_mem _ hg)) hrest
      rw [hlater, hleaves f List.mem_cons_self hstore]

/-- A part that one of the fields sets is read from the item at the place of this field. -/
theorem part_elements (hoptional : ∀ f ∈ fields, f.required = false)
    (hfields : ∀ f ∈ fields, (f.name = name ∧ f.Sets d part) ∨ (f.name ≠ name ∧ f.Leaves part))
    (hnames : (fields.map Field.name).Nodup) (hplace : (fields.map Field.name)[place]? = some name)
    (hread : r.elements depth ending index state fields nodes = .ok state') :
    (∃ n, nodes[place]? = some n ∧ d depth n = .ok (part state')) ∨
      (nodes[place]? = none ∧ part state' = part state) := by
  induction fields generalizing index state nodes place with
  | nil => cases hplace
  | cons f fields ih =>
    obtain ⟨hfresh, hnames⟩ := List.nodup_cons.1 hnames
    have hoptional' := fun g hg => hoptional g (List.mem_cons_of_mem f hg)
    have hfields' := fun g hg => hfields g (List.mem_cons_of_mem f hg)
    cases nodes with
    | nil =>
      exact .inr ⟨List.getElem?_nil, by rw [(elements_nil_eq_ok_iff hoptional).1 hread |>.2]⟩
    | cons n nodes =>
      obtain ⟨store, hstore, hrest⟩ := elements_cons_eq_ok_iff.1 hread
      cases place with
      | zero =>
        -- the field sets the part, and those after it have other names
        obtain rfl : f.name = name := Option.some.inj hplace
        obtain ⟨-, hsets⟩ | ⟨hne, -⟩ := hfields f List.mem_cons_self
        · have hleaves : ∀ g ∈ fields, g.Leaves part := by
            intro g hg
            obtain ⟨hname, -⟩ | ⟨-, hleaves⟩ := hfields' g hg
            · exact absurd (hname ▸ List.mem_map_of_mem hg) hfresh
            · exact hleaves
          have hlater := part_elements_of_leaves hoptional' hleaves hrest
          exact .inl ⟨n, rfl, by rw [hlater]; exact hsets hstore state⟩
        · exact absurd rfl hne
      | succ place =>
        have hplace' : (fields.map Field.name)[place]? = some name := hplace
        have hmem : name ∈ fields.map Field.name := List.mem_of_getElem? hplace'
        obtain ⟨hname, -⟩ | ⟨-, hleaves⟩ := hfields f List.mem_cons_self
        · exact absurd (hname ▸ hmem) hfresh
        · have hlater := ih hoptional' hfields' hnames hplace' hrest
          rw [hleaves hstore state] at hlater
          exact hlater

/-! ## Values -/

/-- A part of a record that is decoded from a value: it is decoded from what stands there for its field, or is
as in the blank record if nothing does. -/
theorem Shows.of_value (h : r.Shows name d part) (hoptional : ∀ f ∈ r.fields, f.required = false)
    (hnames : (r.fields.map Field.name).Nodup) (hplace : (r.fields.map Field.name)[place]? = some name)
    {v : Value} (hv : IsRead depth v) (hstate : r.decoder depth (Node.ofValue v) = .ok state) :
    (∃ w, v.part? name place = some w ∧ d (depth + 1) (Node.ofValue w) = .ok (part state)) ∨
      (v.part? name place = none ∧ part state = part r.blank) := by
  cases v with
  | object ms =>
    obtain ⟨n, hn, hd⟩ | ⟨hnone, hblank⟩ := h.of_read hoptional rfl hstate
    · rw [under?_ofValue hv.members.2.1] at hn
      obtain ⟨w, hw, rfl⟩ := Option.map_eq_some_iff.1 hn
      exact .inl ⟨w, hw, hd⟩
    · rw [under?_ofValue hv.members.2.1, Option.map_eq_none_iff] at hnone
      exact .inr ⟨hnone, hblank⟩
  | array items =>
    have hfields : ∀ f ∈ r.fields, (f.name = name ∧ f.Sets d part) ∨ (f.name ≠ name ∧ f.Leaves part) :=
      fun f hf => (h.fields f hf).imp (fun hown => ⟨hown.1, hown.2.2⟩) fun hother => ⟨hother.1, hother.2.2⟩
    rw [Node.ofValue, decoder] at hstate
    split at hstate
    · cases hstate
    · rw [nested_eq_ok_iff, ofValues_eq_map] at hstate
      obtain ⟨n, hn, hd⟩ | ⟨hnone, hblank⟩ :=
        part_elements hoptional hfields hnames hplace hstate.2
      · rw [List.getElem?_map] at hn
        obtain ⟨w, hw, rfl⟩ := Option.map_eq_some_iff.1 hn
        exact .inl ⟨w, hw, hd⟩
      · rw [List.getElem?_map, Option.map_eq_none_iff] at hnone
        exact .inr ⟨hnone, hblank⟩
  | _ => cases hstate

end Record

end Provenance.Json
