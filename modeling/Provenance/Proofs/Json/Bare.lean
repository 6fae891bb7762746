import Provenance.Proofs.Json.Records

/-!
# Documents without places

A bare node says what a document says, and not where it stands in a text (`Node.bare`). What a decoder reads from a node
it reads from the bare node (`Decoder.IgnoresPlaces`), so documents of one bare node are read alike, whatever their
blanks and escapes.
-/

namespace Provenance.Json

variable {α β σ : Type} {depth index : Nat}

/-! ## Bare nodes -/

/-- A failure of which no more is told than that there is one. -/
def bareFailure : Failure := Fault.valueEnds.at (.at [])

/-- A result, with no more told of a failure than that there is one. -/
def bareResult (result : Except Failure α) : Except Failure α := result.mapError fun _ => bareFailure

/-- A key without its places. -/
def Key.bare (key : Key) : Key := ⟨[], bareResult key.text, []⟩

/-- How a list ends, without the place. -/
def ListEnd.bare : ListEnd → ListEnd
  | .closed _ => .closed []
  | .broken _ _ => .broken (.plain bareFailure) bareFailure
  | .unreached => .unreached

/-- How an object ends, without the place. -/
def ObjectEnd.bare : ObjectEnd → ObjectEnd
  | .closed _ => .closed []
  | .broken _ _ | .brokenKey _ _ | .noColon _ _ => .broken [] (.plain bareFailure)
  | .unreached => .unreached

mutual

/-- A node without the places where its parts stand. -/
def Node.bare : Node → Node
  | .null _ _ => .null [] []
  | .bool _ _ b => .bool [] [] b
  | .number _ _ n => .number [] [] (bareResult n)
  | .string _ _ s => .string [] [] (bareResult s)
  | .array _ items ending => .array [] (bareItems items) ending.bare
  | .object _ members ending => .object [] (bareMembers members) ending.bare
  | .broken _ _ => .broken [] (.plain bareFailure)

/-- Items without places. -/
def bareItems : List Node → List Node
  | [] => []
  | n :: rest => n.bare :: bareItems rest

/-- Members without places. -/
def bareMembers : List (Key × Node) → List (Key × Node)
  | [] => []
  | (key, n) :: rest => (key.bare, n.bare) :: bareMembers rest

end

@[simp]
theorem bareResult_eq_ok_iff {result : Except Failure α} {a : α} :
    bareResult result = .ok a ↔ result = .ok a := by
  cases result <;> simp [bareResult, Except.mapError]

@[simp]
theorem Key.bare_text_eq_ok_iff {key : Key} {k : String} : key.bare.text = .ok k ↔ key.text = .ok k :=
  bareResult_eq_ok_iff

@[simp]
theorem ListEnd.bare_check_eq_ok_iff {ending : ListEnd} {u : Unit} :
    ending.bare.check = .ok u ↔ ending.check = .ok u := by
  cases ending <;> simp [ListEnd.bare, ListEnd.check]

@[simp]
theorem ObjectEnd.bare_check_eq_ok_iff {ending : ObjectEnd} {u : Unit} :
    ending.bare.check = .ok u ↔ ending.check = .ok u := by
  rw [ObjectEnd.check_eq_ok_iff, ObjectEnd.check_eq_ok_iff]
  cases ending <;> simp [ObjectEnd.bare]

theorem bareItems_eq_map {items : List Node} : bareItems items = items.map Node.bare := by
  induction items with
  | nil => rfl
  | cons n items ih => rw [bareItems, ih, List.map_cons]

theorem bareMembers_eq_map {members : List (Key × Node)} :
    bareMembers members = members.map fun m => (m.1.bare, m.2.bare) := by
  induction members with
  | nil => rfl
  | cons m members ih => rw [bareMembers, ih, List.map_cons]

/-! ## Documents that say the same -/

mutual

/-- Whether two documents, neither of which is broken, say the same. -/
def Node.isLike : Node → Node → Bool
  | .null .., .null .. => true
  | .bool _ _ b, .bool _ _ b' => b = b'
  | .number _ _ (.ok n), .number _ _ (.ok n') => n = n'
  | .string _ _ (.ok s), .string _ _ (.ok s') => s = s'
  | .array _ items (.closed _), .array _ items' (.closed _) => itemsAreLike items items'
  | .object _ members (.closed _), .object _ members' (.closed _) => membersAreLike members members'
  | _, _ => false

/-- Whether items are like others. -/
def itemsAreLike : List Node → List Node → Bool
  | [], [] => true
  | n :: items, n' :: items' => n.isLike n' && itemsAreLike items items'
  | _, _ => false

/-- Whether members are like others. -/
def membersAreLike : List (Key × Node) → List (Key × Node) → Bool
  | [], [] => true
  | (⟨_, .ok k, _⟩, n) :: members, (⟨_, .ok k', _⟩, n') :: members' =>
    k = k' && n.isLike n' && membersAreLike members members'
  | _, _ => false

end

mutual

theorem Node.bare_eq_of_isLike (n n' : Node) (h : n.isLike n' = true) : n.bare = n'.bare := by
  unfold Node.isLike at h
  split at h
  · rfl
  · rw [of_decide_eq_true h]
    rfl
  · rw [of_decide_eq_true h]
    rfl
  · rw [of_decide_eq_true h]
    rfl
  · next items _ _ items' _ =>
    rw [Node.bare, Node.bare, bareItems_eq_of_areLike items items' h]
    rfl
  · next members _ _ members' _ =>
    rw [Node.bare, Node.bare, bareMembers_eq_of_areLike members members' h]
    rfl
  · cases h

theorem bareItems_eq_of_areLike (items items' : List Node) (h : itemsAreLike items items' = true) :
    bareItems items = bareItems items' := by
  unfold itemsAreLike at h
  split at h
  · rfl
  · next n items n' items' =>
    obtain ⟨hn, hitems⟩ := Bool.and_eq_true_iff.1 h
    rw [bareItems, bareItems, Node.bare_eq_of_isLike n n' hn, bareItems_eq_of_areLike items items' hitems]
  · cases h

theorem bareMembers_eq_of_areLike (members members' : List (Key × Node))
    (h : membersAreLike members members' = true) : bareMembers members = bareMembers members' := by
  unfold membersAreLike at h
  split at h
  · rfl
  · next k _ n members _ k' _ n' members' =>
    obtain ⟨hfirst, hmembers⟩ := Bool.and_eq_true_iff.1 h
    obtain ⟨hk, hn⟩ := Bool.and_eq_true_iff.1 hfirst
    rw [bareMembers, bareMembers, of_decide_eq_true hk, Node.bare_eq_of_isLike n n' hn,
      bareMembers_eq_of_areLike members members' hmembers]
    rfl
  · cases h

end

/-! ## Values and passing over -/

mutual

theorem ofNode_bare_eq_ok_iff {depth : Nat} {v : Value} :
    ∀ n : Node, Value.ofNode depth n.bare = .ok v ↔ Value.ofNode depth n = .ok v
  | .null .. | .bool .. => Iff.rfl
  | .number _ _ n => by simp [Node.bare, Value.ofNode, map_eq_ok_iff]
  | .string _ _ s => by simp [Node.bare, Value.ofNode, map_eq_ok_iff]
  | .array _ items _ => by
    simp only [Node.bare, Value.ofNode, nested_eq_ok_iff, bind_eq_ok_iff, ofItems_eq_items, Decoder.items_eq_ok_iff,
      Decoder.value, bareItems_haveValues_iff items, ListEnd.bare_check_eq_ok_iff]
  | .object _ members _ => by
    simp only [Node.bare, Value.ofNode, nested_eq_ok_iff, bind_eq_ok_iff, ofMembers_eq_ok_iff,
      bareMembers_haveEntries_iff members, ObjectEnd.bare_check_eq_ok_iff]
  | .broken .. => by simp [Node.bare, Value.ofNode]

theorem bareItems_haveValues_iff {depth : Nat} : ∀ (items : List Node) {vs : List Value},
    List.Forall₂ (fun n v => Value.ofNode depth n = .ok v) (bareItems items) vs ↔
      List.Forall₂ (fun n v => Value.ofNode depth n = .ok v) items vs
  | [], _ => Iff.rfl
  | n :: items, _ => by
    simp only [bareItems, List.forall₂_cons_left_iff, ofNode_bare_eq_ok_iff n, bareItems_haveValues_iff items]

theorem bareMembers_haveEntries_iff {depth : Nat} : ∀ (members : List (Key × Node)) {es : List (String × Value)},
    List.Forall₂ (HasEntry depth) (bareMembers members) es ↔ List.Forall₂ (HasEntry depth) members es
  | [], _ => Iff.rfl
  | (key, n) :: members, _ => by
    simp only [bareMembers, List.forall₂_cons_left_iff, HasEntry, Key.bare_text_eq_ok_iff, ofNode_bare_eq_ok_iff n,
      bareMembers_haveEntries_iff members]

end

theorem passFailure?_array_eq_none_iff {start : Rest} {items : List Node} {ending : ListEnd} :
    (Node.array start items ending).passFailure? = none ↔
      itemsPassFailure? items = none ∧ ending.check = .ok () := by
  cases hitems : itemsPassFailure? items <;> cases ending <;> simp [Node.passFailure?, ListEnd.check, hitems]

theorem passFailure?_object_eq_none_iff {start : Rest} {members : List (Key × Node)} {ending : ObjectEnd} :
    (Node.object start members ending).passFailure? = none ↔
      membersPassFailure? members = none ∧ ending.check = .ok () := by
  rw [ObjectEnd.check_eq_ok_iff]
  cases hmembers : membersPassFailure? members <;> cases ending <;> simp [Node.passFailure?, hmembers]

theorem itemsPassFailure?_cons_eq_none_iff {n : Node} {items : List Node} :
    itemsPassFailure? (n :: items) = none ↔ n.passFailure? = none ∧ itemsPassFailure? items = none := by
  cases hn : n.passFailure? <;> simp [itemsPassFailure?, hn]

theorem membersPassFailure?_cons_eq_none_iff {m : Key × Node} {members : List (Key × Node)} :
    membersPassFailure? (m :: members) = none ↔ m.2.passFailure? = none ∧ membersPassFailure? members = none := by
  cases hm : m.2.passFailure? <;> simp [membersPassFailure?, hm]

mutual

theorem passFailure?_bare_eq_none_iff : ∀ n : Node, n.bare.passFailure? = none ↔ n.passFailure? = none
  | .null .. | .bool .. | .number .. | .string .. => Iff.rfl
  | .array _ items _ => by
    rw [Node.bare, passFailure?_array_eq_none_iff, passFailure?_array_eq_none_iff, bareItems_passFailure? items,
      ListEnd.bare_check_eq_ok_iff]
  | .object _ members _ => by
    rw [Node.bare, passFailure?_object_eq_none_iff, passFailure?_object_eq_none_iff, bareMembers_passFailure? members,
      ObjectEnd.bare_check_eq_ok_iff]
  | .broken .. => by simp [Node.bare, Node.passFailure?]

theorem bareItems_passFailure? : ∀ items : List Node,
    itemsPassFailure? (bareItems items) = none ↔ itemsPassFailure? items = none
  | [] => Iff.rfl
  | n :: items => by
    rw [bareItems, itemsPassFailure?_cons_eq_none_iff, itemsPassFailure?_cons_eq_none_iff,
      passFailure?_bare_eq_none_iff n, bareItems_passFailure? items]

theorem bareMembers_passFailure? : ∀ members : List (Key × Node),
    membersPassFailure? (bareMembers members) = none ↔ membersPassFailure? members = none
  | [] => Iff.rfl
  | (_, n) :: members => by
    rw [bareMembers, membersPassFailure?_cons_eq_none_iff, membersPassFailure?_cons_eq_none_iff,
      passFailure?_bare_eq_none_iff n, bareMembers_passFailure? members]

end

/-! ## Decoders -/

/-- What a decoder reads from a node it reads from the bare node, and nothing else. -/
def Decoder.IgnoresPlaces (d : Decoder α) : Prop := ∀ depth n a, d depth n.bare = .ok a ↔ d depth n = .ok a

namespace Decoder.IgnoresPlaces

variable {d : Decoder α}

theorem value : IgnoresPlaces Decoder.value := fun _ n _ => ofNode_bare_eq_ok_iff n

theorem string : IgnoresPlaces Decoder.string := by
  intro depth n s
  cases n <;> simp [Node.bare, Decoder.string]

theorem bool : IgnoresPlaces Decoder.bool := by
  intro depth n b
  cases n <;> simp [Node.bare, Decoder.bool]

theorem integer {name : String} {allowed : Int → Bool} : IgnoresPlaces (Decoder.integer name allowed) := by
  intro depth n k
  cases n with
  | number start stop m =>
    cases m with
    | error f => simp [Node.bare, Decoder.integer, bareResult, Except.mapError]
    | ok m =>
      cases m with
      | integer j => by_cases hj : allowed j <;> simp [Node.bare, Decoder.integer, bareResult, Except.mapError, hj]
      | double x => simp [Node.bare, Decoder.integer, bareResult, Except.mapError]
  | _ => simp [Node.bare, Decoder.integer]

theorem map (h : d.IgnoresPlaces) (f : α → β) : IgnoresPlaces fun depth n => (d depth n).map f := by
  intro depth n b
  simp only [map_eq_ok_iff, h depth]

theorem uint64 : IgnoresPlaces Decoder.uint64 := integer.map Int.toNat

theorem option (h : d.IgnoresPlaces) : IgnoresPlaces (.option d) := by
  intro depth n a
  cases n with
  | null => exact Iff.rfl
  | _ => exact h.map some depth _ a

theorem list (h : d.IgnoresPlaces) : IgnoresPlaces (.list d) := by
  intro depth n as
  cases n with
  | array start items ending =>
    simp only [Node.bare, Decoder.list, nested_eq_ok_iff, bind_eq_ok_iff, items_eq_ok_iff, bareItems_eq_map,
      List.forall₂_map_left_iff, h (depth + 1), ListEnd.bare_check_eq_ok_iff]
  | _ => simp [Node.bare, Decoder.list]

theorem dictionary (h : d.IgnoresPlaces) : IgnoresPlaces (.dictionary .text d) := by
  intro depth n out
  cases n with
  | object start members ending =>
    have hentry : ∀ (m : Key × Node) (e : String × α),
        d.ReadsEntry (depth + 1) (m.1.bare, m.2.bare) e ↔ d.ReadsEntry (depth + 1) m e := fun m e =>
      and_congr Key.bare_text_eq_ok_iff (h (depth + 1) m.2 e.2)
    simp only [Node.bare, dictionary_eq_ok_iff, bareMembers_eq_map, List.forall₂_map_left_iff, hentry,
      ObjectEnd.bare_check_eq_ok_iff]
  | _ => simp [Node.bare, Decoder.dictionary]

end Decoder.IgnoresPlaces

/-! ## Records -/

namespace Record

variable {r : Record σ} {state state' : σ}

theorem takes_bare_iff (hfields : ∀ f ∈ r.fields, f.read.IgnoresPlaces) {m : Key × Node}
    {c : Option String × (σ → σ)} : r.Takes depth (m.1.bare, m.2.bare) c ↔ r.Takes depth m c := by
  obtain ⟨key, n⟩ := m
  constructor
  · intro h
    cases h with
    | field hk hf hstore =>
      exact .field (Key.bare_text_eq_ok_iff.1 hk) hf ((hfields _ (Orderless.field?_mem hf) _ _ _).1 hstore)
    | kept hk hf hkeep hv => exact .kept (Key.bare_text_eq_ok_iff.1 hk) hf hkeep ((ofNode_bare_eq_ok_iff n).1 hv)
    | passed hk hf hkeep hpass =>
      exact .passed (Key.bare_text_eq_ok_iff.1 hk) hf hkeep ((passFailure?_bare_eq_none_iff n).1 hpass)
  · intro h
    cases h with
    | field hk hf hstore =>
      exact .field (Key.bare_text_eq_ok_iff.2 hk) hf ((hfields _ (Orderless.field?_mem hf) _ _ _).2 hstore)
    | kept hk hf hkeep hv => exact .kept (Key.bare_text_eq_ok_iff.2 hk) hf hkeep ((ofNode_bare_eq_ok_iff n).2 hv)
    | passed hk hf hkeep hpass =>
      exact .passed (Key.bare_text_eq_ok_iff.2 hk) hf hkeep ((passFailure?_bare_eq_none_iff n).2 hpass)

theorem elements_bare_eq_ok_iff {fields : List (Field σ)} (hfields : ∀ f ∈ fields, f.read.IgnoresPlaces)
    {ending : ListEnd} {nodes : List Node} :
    r.elements depth ending.bare index state fields (nodes.map Node.bare) = .ok state' ↔
      r.elements depth ending index state fields nodes = .ok state' := by
  induction fields generalizing index state nodes with
  | nil =>
    cases nodes with
    | nil => cases ending <;> simp [Record.elements, ListEnd.bare]
    | cons n nodes => simp [Record.elements]
  | cons f fields ih =>
    have hrest := fun g hg => hfields g (List.mem_cons_of_mem _ hg)
    cases nodes with
    | nil =>
      have hnil := @ih (index + 1) state hrest []
      cases ending <;> cases hrequired : f.required <;>
        simp_all [Record.elements, ListEnd.bare, ListEnd.check, bind, Except.bind]
    | cons n nodes =>
      simp only [List.map_cons, Record.elements, bind_eq_ok_iff, inside_eq_ok_iff, ih hrest,
        hfields f List.mem_cons_self depth]

/-- A record is read from what a document says. -/
theorem ignoresPlaces (hoptional : ∀ f ∈ r.fields, f.required = false)
    (hfields : ∀ f ∈ r.fields, f.read.IgnoresPlaces) : r.decoder.IgnoresPlaces := by
  intro depth n state
  cases n with
  | object start members ending =>
    simp only [Node.bare, decoder_object_eq_ok_iff hoptional, bareMembers_eq_map, List.forall₂_map_left_iff,
      takes_bare_iff hfields, ObjectEnd.bare_check_eq_ok_iff]
  | array start items ending =>
    rw [Node.bare, decoder, decoder]
    split
    · simp
    · simp only [nested_eq_ok_iff, bareItems_eq_map, elements_bare_eq_ok_iff hfields]
  | _ => simp [Node.bare, decoder]

end Record

end Provenance.Json
