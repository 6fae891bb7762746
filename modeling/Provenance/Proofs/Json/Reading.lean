import Mathlib.Data.List.Perm.Basic
import Provenance.Json.Decoder
import Provenance.Proofs.Dictionary
import Provenance.Proofs.Except

/-!
# Values of nodes

When a node has a value, and what a document without a key twice leaves open once its value is known: the
blanks, how the strings are written, and the order of the members.
-/

namespace Provenance.Json

variable {α β κ : Type}

/-! ## Lists member by member -/

theorem exists_mem_of_forall₂ {R : α → β → Prop} {as : List α} {bs : List β}
    {b : β} (h : List.Forall₂ R as bs) (hb : b ∈ bs) : ∃ a ∈ as, R a b := by
  induction h with
  | nil => cases hb
  | @cons a b' as bs hab _ ih =>
    rcases List.mem_cons.1 hb with rfl | hb
    · exact ⟨a, List.mem_cons_self, hab⟩
    · obtain ⟨a', ha', hR⟩ := ih hb
      exact ⟨a', List.mem_cons_of_mem _ ha', hR⟩

theorem forall₂_trans_symm {γ : Type} {R : α → γ → Prop} {S : β → γ → Prop}
    {T : β → κ → Prop} {U : α → κ → Prop} {as : List α} {bs : List β} {cs : List γ} {ds : List κ}
    (hU : ∀ {a b c d}, R a c → S b c → T b d → U a d)
    (hR : List.Forall₂ R as cs) (hS : List.Forall₂ S bs cs) (hT : List.Forall₂ T bs ds) :
    List.Forall₂ U as ds := by
  induction hR generalizing bs ds with
  | nil =>
    cases hS
    cases hT
    exact .nil
  | cons ha _ ih =>
    cases hS with
    | cons hb hS =>
      cases hT with
      | cons hd hT => exact .cons (hU ha hb hd) (ih hS hT)

/-! ## Keys -/

/-- The texts of the keys of some members. -/
def keyTexts (members : List (Key × Node)) : List String :=
  members.filterMap fun m => m.1.text.toOption

theorem keyTexts_cons {m : Key × Node} {members : List (Key × Node)} {k : String}
    (h : m.1.text = .ok k) : keyTexts (m :: members) = k :: keyTexts members := by
  simp [keyTexts, h]

theorem mem_keyTexts {m : Key × Node} {members : List (Key × Node)} {k : String} (hm : m ∈ members)
    (h : m.1.text = .ok k) : k ∈ keyTexts members :=
  List.mem_filterMap.2 ⟨m, hm, by rw [h]; rfl⟩

mutual

/-- No object in a node has a key twice. -/
def Node.HasUniqueKeys : Node → Prop
  | .array _ items _ => ItemsHaveUniqueKeys items
  | .object _ members _ => (keyTexts members).Nodup ∧ MembersHaveUniqueKeys members
  | _ => True

/-- No object in some items has a key twice. -/
def ItemsHaveUniqueKeys : List Node → Prop
  | [] => True
  | n :: rest => n.HasUniqueKeys ∧ ItemsHaveUniqueKeys rest

/-- No object in the values of some members has a key twice. -/
def MembersHaveUniqueKeys : List (Key × Node) → Prop
  | [] => True
  | (_, n) :: rest => n.HasUniqueKeys ∧ MembersHaveUniqueKeys rest

end

mutual

/-- Whether an object in a node has a key twice can be seen. -/
instance Node.decidableUniqueKeys : (n : Node) → Decidable n.HasUniqueKeys
  | .array _ items _ => decidableItemsUniqueKeys items
  | .object _ members _ =>
    @instDecidableAnd _ _ (inferInstanceAs (Decidable (keyTexts members).Nodup))
      (decidableMembersUniqueKeys members)
  | .null .. | .bool .. | .number .. | .string .. | .broken .. => .isTrue trivial

instance decidableItemsUniqueKeys : (items : List Node) → Decidable (ItemsHaveUniqueKeys items)
  | [] => .isTrue trivial
  | n :: rest => @instDecidableAnd _ _ n.decidableUniqueKeys (decidableItemsUniqueKeys rest)

instance decidableMembersUniqueKeys :
    (members : List (Key × Node)) → Decidable (MembersHaveUniqueKeys members)
  | [] => .isTrue trivial
  | (_, n) :: rest => @instDecidableAnd _ _ n.decidableUniqueKeys (decidableMembersUniqueKeys rest)

end

theorem itemsHaveUniqueKeys_iff {items : List Node} :
    ItemsHaveUniqueKeys items ↔ ∀ n ∈ items, n.HasUniqueKeys := by
  induction items with
  | nil => simp [ItemsHaveUniqueKeys]
  | cons n items ih => simp [ItemsHaveUniqueKeys, ih]

theorem membersHaveUniqueKeys_iff {members : List (Key × Node)} :
    MembersHaveUniqueKeys members ↔ ∀ m ∈ members, m.2.HasUniqueKeys := by
  induction members with
  | nil => simp [MembersHaveUniqueKeys]
  | cons m members ih => simp [MembersHaveUniqueKeys, ih]

/-! ## Values -/

/-- A member of an object has a key and a value. -/
def HasEntry (depth : Nat) (m : Key × Node) (entry : String × Value) : Prop :=
  m.1.text = .ok entry.1 ∧ Value.ofNode depth m.2 = .ok entry.2

/-- How a node has a value. -/
inductive HasValue (depth : Nat) : Node → Value → Prop
  | null {start stop} : HasValue depth (.null start stop) .null
  | bool {start stop b} : HasValue depth (.bool start stop b) (.bool b)
  | number {start stop n} : HasValue depth (.number start stop (.ok n)) (.number n)
  | string {start stop s} : HasValue depth (.string start stop (.ok s)) (.string s)
  | array {start nodes ending vs} (shallow : depth < maxNesting)
    (items : List.Forall₂ (fun n v => Value.ofNode (depth + 1) n = .ok v) nodes vs)
    (ended : ending.check = .ok ()) : HasValue depth (.array start nodes ending) (.array vs)
  | object {start members ending entries ms} (shallow : depth < maxNesting)
    (held : List.Forall₂ (HasEntry (depth + 1)) members entries)
    (made : Dictionary.ofList entries = ms) (ended : ending.check = .ok ()) :
    HasValue depth (.object start members ending) (.object ms)

section
variable {depth index : Nat} {n : Node} {nodes : List Node} {members : List (Key × Node)}
  {start : Rest} {v : Value} {vs : List Value} {entries ms : List (String × Value)} {step : Step}

theorem inside_eq_ok_iff {result : Except Failure α} {a : α} :
    inside step result = .ok a ↔ result = .ok a := by
  cases result <;> simp [inside]

theorem nested_eq_ok_iff {read : Nat → Except Failure α} {a : α} :
    nested depth start read = .ok a ↔ depth < maxNesting ∧ read (depth + 1) = .ok a := by
  unfold nested
  split <;> simp [*]

/-- An object has ended well if its brace was found or not yet reached. -/
theorem ObjectEnd.check_eq_ok_iff {ending : ObjectEnd} :
    ending.check = .ok () ↔ (∃ stop, ending = .closed stop) ∨ ending = .unreached := by
  constructor
  · intro h
    cases ending with
    | closed stop => exact .inl ⟨stop, rfl⟩
    | unreached => exact .inr rfl
    | broken | brokenKey => cases h
    | noColon key b =>
      obtain ⟨_, -, hbreak⟩ := bind_eq_ok_iff.1 h
      cases hbreak
  · rintro (⟨stop, rfl⟩ | rfl) <;> rfl

theorem Decoder.items_eq_ok_iff {d : Decoder α} {as : List α} :
    Decoder.items d depth index nodes = .ok as ↔ List.Forall₂ (fun n a => d depth n = .ok a) nodes as := by
  induction nodes generalizing index as with
  | nil => simp [Decoder.items, eq_comm]
  | cons n nodes ih =>
    rw [Decoder.items, List.forall₂_cons_left_iff]
    simp only [bind_eq_ok_iff, inside_eq_ok_iff, ih, pure, Except.pure, Except.ok.injEq]
    constructor
    · rintro ⟨a, ha, rest, hrest, rfl⟩
      exact ⟨a, rest, ha, hrest, rfl⟩
    · rintro ⟨a, rest, ha, hrest, rfl⟩
      exact ⟨a, ha, rest, hrest, rfl⟩

/-- The items of a value are a list of values. -/
theorem ofItems_eq_items : Value.ofItems depth index nodes = Decoder.items Decoder.value depth index nodes := by
  induction nodes generalizing index with
  | nil => rfl
  | cons n nodes ih =>
    rw [Value.ofItems, Decoder.items, ih]
    rfl

/-- The members of an object are put into the dictionary one after another. -/
theorem ofMembers_eq_ok_iff :
    Value.ofMembers depth entries members = .ok ms ↔
      ∃ es, List.Forall₂ (HasEntry depth) members es ∧
        es.foldl (fun d e => Dictionary.insert e.1 e.2 d) entries = ms := by
  induction members generalizing entries with
  | nil => simp [Value.ofMembers]
  | cons m members ih =>
    rw [Value.ofMembers]
    simp only [bind_eq_ok_iff, inside_eq_ok_iff, ih, List.forall₂_cons_left_iff]
    constructor
    · rintro ⟨k, hk, v, hv, es, hes, hms⟩
      exact ⟨(k, v) :: es, ⟨(k, v), es, ⟨hk, hv⟩, hes, rfl⟩, hms⟩
    · rintro ⟨_, ⟨⟨k, v⟩, es, ⟨hk, hv⟩, hes, rfl⟩, hms⟩
      exact ⟨k, hk, v, hv, es, hes, hms⟩

theorem ofNode_eq_ok_iff : Value.ofNode depth n = .ok v ↔ HasValue depth n v := by
  constructor
  · intro h
    cases n with
    | null | bool =>
      cases h
      constructor
    | number _ _ n | string _ _ n =>
      cases n with
      | error f => cases h
      | ok n =>
        cases h
        constructor
    | array start nodes ending =>
      rw [Value.ofNode, nested_eq_ok_iff] at h
      obtain ⟨hdepth, h⟩ := h
      obtain ⟨vs, hvs, h⟩ := bind_eq_ok_iff.1 h
      obtain ⟨_, hend, h⟩ := bind_eq_ok_iff.1 h
      cases h
      exact .array hdepth (Decoder.items_eq_ok_iff.1 (ofItems_eq_items ▸ hvs)) hend
    | object start members ending =>
      rw [Value.ofNode, nested_eq_ok_iff] at h
      obtain ⟨hdepth, h⟩ := h
      obtain ⟨ms, hms, h⟩ := bind_eq_ok_iff.1 h
      obtain ⟨_, hend, h⟩ := bind_eq_ok_iff.1 h
      obtain ⟨es, hes, rfl⟩ := ofMembers_eq_ok_iff.1 hms
      cases h
      exact .object hdepth hes rfl hend
    | broken => cases h
  · intro h
    cases h with
    | null | bool | number | string => rfl
    | array shallow items ended =>
      rw [Value.ofNode, nested_eq_ok_iff]
      exact ⟨shallow, bind_eq_ok_iff.2
        ⟨_, ofItems_eq_items.trans (Decoder.items_eq_ok_iff.2 items), bind_eq_ok_iff.2 ⟨_, ended, rfl⟩⟩⟩
    | object shallow held made ended =>
      rw [Value.ofNode, nested_eq_ok_iff]
      exact ⟨shallow, bind_eq_ok_iff.2
        ⟨_, ofMembers_eq_ok_iff.2 ⟨_, held, made⟩, bind_eq_ok_iff.2 ⟨_, ended, rfl⟩⟩⟩

end

mutual

/-- What has a value can be passed over. -/
theorem passFailure?_eq_none {depth : Nat} {v : Value} :
    ∀ {n : Node}, Value.ofNode depth n = .ok v → n.passFailure? = none
  | .null .., _ | .bool .., _ | .number .., _ | .string .., _ => by rw [Node.passFailure?] <;> simp
  | .array start nodes ending, h => by
    cases ofNode_eq_ok_iff.1 h with
    | array shallow items ended =>
      cases ending with
      | broken => cases ended
      | _ => simp only [Node.passFailure?, itemsPassFailure?_eq_none items]
  | .object start members ending, h => by
    cases ofNode_eq_ok_iff.1 h with
    | object shallow held made ended =>
      obtain ⟨stop, rfl⟩ | rfl := ObjectEnd.check_eq_ok_iff.1 ended
      all_goals simp only [Node.passFailure?, membersPassFailure?_eq_none held]
  | .broken .., h => by cases h

theorem itemsPassFailure?_eq_none {depth : Nat} :
    ∀ {nodes : List Node} {vs : List Value},
      List.Forall₂ (fun n v => Value.ofNode depth n = .ok v) nodes vs →
        itemsPassFailure? nodes = none
  | [], _, _ => rfl
  | _ :: _, _, .cons hn hrest => by
    rw [itemsPassFailure?, passFailure?_eq_none hn]
    exact itemsPassFailure?_eq_none hrest

theorem membersPassFailure?_eq_none {depth : Nat} :
    ∀ {members : List (Key × Node)} {es : List (String × Value)},
      List.Forall₂ (HasEntry depth) members es → membersPassFailure? members = none
  | [], _, _ => rfl
  | (_, _) :: _, _, .cons hm hrest => by
    rw [membersPassFailure?, passFailure?_eq_none hm.2]
    exact membersPassFailure?_eq_none hrest

end

/-! ## The order of members -/

section
variable {depth : Nat} {members members' : List (Key × Node)} {entries entries' : List (String × Value)}

theorem keyTexts_eq_of_forall₂ {entries : List (String × α)}
    (h : List.Forall₂ (fun m e => m.1.text = .ok e.1) members entries) :
    keyTexts members = Dictionary.keys entries := by
  induction h with
  | nil => rfl
  | cons hm _ ih =>
    rw [keyTexts_cons hm, ih]
    rfl

/-- Two objects with one value and no key twice have the same members in some order: what holds of the members
of the one, each with something, holds of those of the other. -/
theorem exists_perm_of_same_members {R : Key × Node → β → Prop} {bs : List β}
    (hR : ∀ {m m' e b}, HasEntry depth m e → HasEntry depth m' e → m.2.HasUniqueKeys →
      m'.2.HasUniqueKeys → R m b → R m' b)
    (hheld : List.Forall₂ (HasEntry depth) members entries)
    (hheld' : List.Forall₂ (HasEntry depth) members' entries')
    (hsame : Dictionary.ofList entries = Dictionary.ofList entries')
    (hkeys : (keyTexts members).Nodup ∧ MembersHaveUniqueKeys members)
    (hkeys' : (keyTexts members').Nodup ∧ MembersHaveUniqueKeys members')
    (hbs : List.Forall₂ R members bs) : ∃ bs', bs.Perm bs' ∧ List.Forall₂ R members' bs' := by
  have hnodup : (Dictionary.keys entries).Nodup :=
    keyTexts_eq_of_forall₂ (hheld.imp fun _ _ h => h.1) ▸ hkeys.1
  have hnodup' : (Dictionary.keys entries').Nodup :=
    keyTexts_eq_of_forall₂ (hheld'.imp fun _ _ h => h.1) ▸ hkeys'.1
  have hperm : entries'.Perm entries :=
    (Dictionary.perm_ofList hnodup').symm.trans (hsame ▸ Dictionary.perm_ofList hnodup)
  -- from the members of the one to its entries, to those of the other in some order, and to its members
  have hunique := (List.forall₂_and_left _ _).2 ⟨membersHaveUniqueKeys_iff.1 hkeys.2, hheld⟩
  have hunique' := (List.forall₂_and_left _ _).2 ⟨membersHaveUniqueKeys_iff.1 hkeys'.2, hheld'⟩
  obtain ⟨ordered, hordered, hmembers⟩ := List.perm_comp_forall₂ hperm hunique.flip
  obtain ⟨bs', hbs', hpermBs⟩ := List.perm_comp_forall₂ hmembers hbs
  refine ⟨bs', hpermBs.symm, forall₂_trans_symm ?_ hunique' hordered.flip hbs'⟩
  intro m' m e b hm' hm hb
  exact hR hm.2 hm'.2 hm.1 hm'.1 hb

end

end Provenance.Json
