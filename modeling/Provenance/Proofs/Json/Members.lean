import Provenance.Proofs.Json.Decoding

/-!
# What a decoder says of the value

The member that counts under a key is the last one (`lastMember?`). Most decoders accept only what has a value, and what
they make of it determines this value (`Decoder.Inverts`).
-/

namespace Provenance.Json

variable {α : Type} {depth : Nat}

/-! ## Members by key -/

/-- The value of the last member under a key. -/
def lastMember? (key : String) (members : List (Key × Node)) : Option Node :=
  (members.reverse.find? fun m => m.1.text.toOption = some key).map (·.2)

theorem lastMember?_cons {key : String} {m : Key × Node} {members : List (Key × Node)} :
    lastMember? key (m :: members)
      = (lastMember? key members).or (if m.1.text.toOption = some key then some m.2 else none) := by
  rw [lastMember?, List.reverse_cons, List.find?_append, lastMember?]
  cases members.reverse.find? fun m => m.1.text.toOption = some key with
  | none => by_cases h : m.1.text.toOption = some key <;> simp [h]
  | some m' => rfl

theorem exists_mem_of_lastMember? {key : String} {members : List (Key × Node)} {n : Node}
    (h : lastMember? key members = some n) : ∃ m ∈ members, m.1.text.toOption = some key ∧ m.2 = n := by
  obtain ⟨m, hfound, rfl⟩ := Option.map_eq_some_iff.1 h
  exact ⟨m, List.mem_reverse.1 (List.mem_of_find?_eq_some hfound), by simpa using List.find?_some hfound, rfl⟩

/-- A dictionary that was read has under a key what was read from the member that counts. -/
theorem get?_ofList_of_reads {d : Decoder α} {key : String} {members : List (Key × Node)}
    {entries : List (String × α)} (h : List.Forall₂ (d.ReadsEntry depth) members entries) :
    Dictionary.get? key (Dictionary.ofList entries)
      = (lastMember? key members).bind fun n => (d depth n).toOption := by
  rw [Dictionary.get?_ofList]
  induction h with
  | nil => rfl
  | @cons m e members entries hm hrest ih =>
    have hlast : Dictionary.get? key [e] = if m.1.text.toOption = some key then some e.2 else none := by
      rw [hm.1]
      by_cases hkey : e.1 = key <;> simp [Dictionary.get?, hkey]
    rw [List.reverse_cons, Dictionary.get?_append, ih, lastMember?_cons, hlast]
    cases hfound : lastMember? key members with
    | none => by_cases hkey : m.1.text.toOption = some key <;> simp [hkey, hm.2]
    | some n =>
      obtain ⟨m', hm', -, rfl⟩ := exists_mem_of_lastMember? hfound
      obtain ⟨e', -, -, he'⟩ := exists_mem_of_forall₂ hrest.flip hm'
      simp [he']

/-- The members of a node that is an object. -/
def Node.members? : Node → Option (List (Key × Node))
  | .object _ members _ => some members
  | _ => none

/-- The value of the last member under a key of a node that is an object. -/
def Node.under? (key : String) (n : Node) : Option Node := n.members?.bind (lastMember? key)

theorem members?_isSome_of_under? {key : String} {n n' : Node} (h : n.under? key = some n') :
    n.members?.isSome := by
  obtain ⟨members, hmembers, -⟩ := Option.bind_eq_some_iff.1 h
  rw [hmembers]
  rfl

/-- A dictionary has an entry under the keys of the members, and what was read from the one that counts. -/
theorem get?_dictionary {d : Decoder α} {key : String} {n : Node} {out : List (String × α)}
    (h : Decoder.dictionary .text d depth n = .ok out) :
    (n.under? key = none ∧ Dictionary.get? key out = none) ∨
      ∃ n' a, n.under? key = some n' ∧ d (depth + 1) n' = .ok a ∧ Dictionary.get? key out = some a := by
  cases n with
  | object start members ending =>
    obtain ⟨-, -, es, hes, rfl⟩ := Decoder.dictionary_eq_ok_iff.1 h
    have hget := @get?_ofList_of_reads _ _ _ key _ _ hes
    show (lastMember? key members = none ∧ _) ∨ ∃ n' a, lastMember? key members = some n' ∧ _
    cases hlast : lastMember? key members with
    | none =>
      rw [hlast] at hget
      exact .inl ⟨rfl, hget⟩
    | some n' =>
      obtain ⟨m, hm, -, rfl⟩ := exists_mem_of_lastMember? hlast
      obtain ⟨e, -, -, he⟩ := exists_mem_of_forall₂ hes.flip hm
      rw [hlast] at hget
      exact .inr ⟨m.2, e.2, rfl, he, hget.trans (by simp [he])⟩
  | _ => cases h

/-- The text of a node that is one. -/
def Node.text? : Node → Option String
  | .string _ _ (.ok s) => some s
  | _ => none

theorem text?_eq_of_ofNode {n : Node} {v : Value} (h : Value.ofNode depth n = .ok v) :
    n.text? = v.string? := by
  cases ofNode_eq_ok_iff.1 h <;> rfl

theorem ofNode_of_text? {n : Node} {s : String} (h : n.text? = some s) :
    Value.ofNode depth n = .ok (.string s) := by
  cases n with
  | string start stop t =>
    cases t with
    | ok t => cases h; rfl
    | error f => cases h
  | _ => cases h

theorem members?_isSome_of_ofNode {n : Node} {ms : List (String × Value)}
    (h : Value.ofNode depth n = .ok (.object ms)) : n.members?.isSome := by
  cases ofNode_eq_ok_iff.1 h
  rfl

theorem exists_object_of_ofNode {n : Node} {v : Value} (h : Value.ofNode depth n = .ok v)
    (hn : n.members?.isSome) : ∃ ms, v = .object ms := by
  cases ofNode_eq_ok_iff.1 h with
  | object => exact ⟨_, rfl⟩
  | _ => cases hn

/-- An object that has a value has under a key the value of the member that counts. -/
theorem get?_of_ofNode {key : String} {n : Node} {ms : List (String × Value)}
    (h : Value.ofNode depth n = .ok (.object ms)) :
    Dictionary.get? key ms = (n.under? key).bind fun n => (Value.ofNode (depth + 1) n).toOption := by
  cases ofNode_eq_ok_iff.1 h with
  | object shallow held made ended =>
    subst made
    exact @get?_ofList_of_reads _ _ Decoder.value key _ _ held

/-! ## From what was decoded to the value -/

namespace Decoder

variable {d : Decoder α} {enc : α → Value}

/-- What a decoder makes of a node determines the node's value. -/
def Inverts (d : Decoder α) (enc : α → Value) : Prop :=
  ∀ ⦃depth n a⦄, d depth n = .ok a → Value.ofNode depth n = .ok (enc a)

/-- What a decoder accepts has a value. -/
def AcceptsValues (d : Decoder α) : Prop := ∀ ⦃depth n a⦄, d depth n = .ok a → ∃ v, Value.ofNode depth n = .ok v

theorem Inverts.acceptsValues (h : d.Inverts enc) : d.AcceptsValues := fun _ _ _ ha => ⟨_, h ha⟩

theorem AcceptsValues.map {β : Type} (h : d.AcceptsValues) (f : α → β) :
    AcceptsValues fun depth n => (d depth n).map f := by
  intro depth n b hb
  obtain ⟨a, ha, -⟩ := map_eq_ok_iff.1 hb
  exact h ha

namespace Inverts

theorem value : Inverts Decoder.value id := fun _ _ _ h => h

theorem string : Inverts Decoder.string .string := by
  intro depth n s h
  cases n with
  | string start stop t =>
    have ht : t = .ok s := h
    rw [ht]
    rfl
  | _ => cases h

theorem bool : Inverts Decoder.bool .bool := by
  intro depth n b h
  cases n with
  | bool => cases h; rfl
  | _ => cases h

theorem uint64 : Inverts Decoder.uint64 fun k => .integer k := by
  intro depth n k h
  obtain ⟨i, hi, rfl⟩ := map_eq_ok_iff.1 h
  cases n with
  | number start stop m =>
    cases m with
    | error f => cases hi
    | ok m =>
      cases m with
      | double x => cases hi
      | integer j =>
        rw [Decoder.integer] at hi
        split at hi
        · next hj =>
          cases hi
          have hpos : 0 ≤ i := by
            simp only [isUnsigned, Bool.and_eq_true, decide_eq_true_eq] at hj
            exact hj.1
          show Except.ok (Value.number (.integer i)) = Except.ok (Value.number (.integer (i.toNat : Int)))
          rw [Int.toNat_of_nonneg hpos]
        · cases hi
  | _ => cases hi

theorem option (h : d.Inverts enc) : Inverts (.option d) fun a => (a.map enc).getD .null := by
  intro depth n a ha
  cases n with
  | null =>
    cases ha
    rfl
  | _ =>
    obtain ⟨b, hb, rfl⟩ := map_eq_ok_iff.1 ha
    exact h hb

theorem list (h : d.Inverts enc) : Inverts (.list d) fun as => .array (as.map enc) := by
  intro depth n as has
  cases n with
  | array start nodes ending =>
    rw [Decoder.list, nested_eq_ok_iff] at has
    obtain ⟨hdepth, has⟩ := has
    obtain ⟨bs, hbs, has⟩ := bind_eq_ok_iff.1 has
    obtain ⟨_, hend, has⟩ := bind_eq_ok_iff.1 has
    cases has
    have hitems := (items_eq_ok_iff.1 hbs).imp fun _ _ ha => h ha
    exact ofNode_eq_ok_iff.2 (.array hdepth (List.forall₂_map_right_iff.2 hitems) hend)
  | _ => cases has

theorem dictionary (h : d.Inverts enc) :
    Inverts (.dictionary .text d) fun es => .object (es.map fun e => (e.1, enc e.2)) := by
  intro depth n out hout
  cases n with
  | object start members ending =>
    obtain ⟨hdepth, hend, es, hes, rfl⟩ := dictionary_eq_ok_iff.1 hout
    have hheld : List.Forall₂ (HasEntry (depth + 1)) members (es.map fun e => (e.1, enc e.2)) :=
      List.forall₂_map_right_iff.2 (hes.imp fun _ _ he => ⟨he.1, h he.2⟩)
    exact ofNode_eq_ok_iff.2 (.object hdepth hheld (Dictionary.ofList_map enc es) hend)
  | _ => cases hout

end Inverts

theorem text?_of_string {n : Node} {s : String} (h : Decoder.string depth n = .ok s) :
    n.text? = some s :=
  text?_eq_of_ofNode (Inverts.string h)

theorem text?_of_option {n : Node} {s : Option String} (h : Decoder.option .string depth n = .ok s) :
    n.text? = s := by
  rw [text?_eq_of_ofNode (Inverts.string.option h)]
  cases s <;> rfl

end Decoder

end Provenance.Json
