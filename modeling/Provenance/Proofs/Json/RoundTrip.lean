import Provenance.Proofs.Json.Printing
import Provenance.Proofs.Json.Decoding

/-!
# Values are read back from their text

A value that was read from a document and whose numbers are integers of 64 bits is read back from the text that is
written for it. No object in this text has a key twice.
-/

namespace Provenance.Json

open Text (Piece)

mutual

/-- All numbers in a value are integers of 64 bits, with or without sign. -/
def Value.HasOnlyIntegers : Value → Prop
  | .number (.integer k) => FitsWord k
  | .number (.double _) => False
  | .array items => ItemsHaveOnlyIntegers items
  | .object members => MembersHaveOnlyIntegers members
  | _ => True

/-- All numbers in some items are integers of 64 bits. -/
def ItemsHaveOnlyIntegers : List Value → Prop
  | [] => True
  | v :: rest => v.HasOnlyIntegers ∧ ItemsHaveOnlyIntegers rest

/-- All numbers in the values of some members are integers of 64 bits. -/
def MembersHaveOnlyIntegers : List (String × Value) → Prop
  | [] => True
  | (_, v) :: rest => v.HasOnlyIntegers ∧ MembersHaveOnlyIntegers rest

end

mutual

/-- Whether all numbers in a value are integers can be seen. -/
instance Value.decidableOnlyIntegers : (v : Value) → Decidable v.HasOnlyIntegers
  | .number (.integer k) => inferInstanceAs (Decidable (isSigned k = true ∨ isUnsigned k = true))
  | .number (.double _) => .isFalse id
  | .array items => decidableItemsOnlyIntegers items
  | .object members => decidableMembersOnlyIntegers members
  | .null | .bool _ | .string _ => .isTrue trivial

instance decidableItemsOnlyIntegers : (items : List Value) → Decidable (ItemsHaveOnlyIntegers items)
  | [] => .isTrue trivial
  | v :: rest => @instDecidableAnd _ _ v.decidableOnlyIntegers (decidableItemsOnlyIntegers rest)

instance decidableMembersOnlyIntegers :
    (members : List (String × Value)) → Decidable (MembersHaveOnlyIntegers members)
  | [] => .isTrue trivial
  | (_, v) :: rest => @instDecidableAnd _ _ v.decidableOnlyIntegers (decidableMembersOnlyIntegers rest)

end

variable {depth fuel : Nat} {rest : Rest}

/-! ## What a text begins with -/

/-- A character that is neither a blank nor a closing bracket. -/
def StartsItem (c : Char) : Prop := c ∉ [' ', '\n', '\t', '\r', ']']

theorem startsItem_of_isDigit {c : Char} (h : c.isDigit = true) : StartsItem c := by
  intro hc
  simp only [List.mem_cons, List.not_mem_nil, or_false] at hc
  obtain rfl | rfl | rfl | rfl | rfl := hc <;> exact absurd h (by decide)

theorem text_startsItem {v : Value} (h : v.HasOnlyIntegers) :
    ∃ c tail, v.text = c :: tail ∧ StartsItem c := by
  cases v with
  | null => exact ⟨'n', _, rfl, by unfold StartsItem; decide⟩
  | bool b =>
    cases b with
    | false => exact ⟨'f', _, rfl, by unfold StartsItem; decide⟩
    | true => exact ⟨'t', _, rfl, by unfold StartsItem; decide⟩
  | number n =>
    cases n with
    | double x => exact h.elim
    | integer k =>
      cases k with
      | ofNat n =>
        obtain ⟨c, cs, hcs⟩ := List.exists_cons_of_ne_nil (l := naturalText n) Nat.toDigits_ne_nil
        exact ⟨c, cs, hcs,
          startsItem_of_isDigit (isDigit_of_mem_naturalText (hcs ▸ List.mem_cons_self))⟩
      | negSucc n => exact ⟨'-', _, rfl, by unfold StartsItem; decide⟩
  | string s => exact ⟨'"', _, rfl, by unfold StartsItem; decide⟩
  | array items => exact ⟨'[', _, rfl, by unfold StartsItem; decide⟩
  | object members => exact ⟨'\x7b', _, rfl, by unfold StartsItem; decide⟩

theorem itemsText_startsItem {v : Value} {vs : List Value} (h : ItemsHaveOnlyIntegers (v :: vs)) :
    ∃ c tail, Value.itemsText (v :: vs) = c :: tail ∧ StartsItem c := by
  obtain ⟨c, tail, htext, hc⟩ := text_startsItem h.1
  cases vs with
  | nil => exact ⟨c, tail ++ [']'], by rw [Value.itemsText, htext]; rfl, hc⟩
  | cons w vs =>
    exact ⟨c, tail ++ ',' :: Value.itemsText (w :: vs), by rw [Value.itemsText, htext]; rfl, hc⟩

theorem skipBlanks_of_startsItem {c : Char} (h : StartsItem c) :
    skipBlanks (.char c :: rest) = .char c :: rest := by
  rw [skipBlanks, if_neg]
  rintro (rfl | rfl | rfl | rfl) <;> exact h (by decide)

theorem firstItem_of_startsItem {c : Char} (h : StartsItem c) :
    firstItem (fuel + 1) (.char c :: rest) = item fuel (.char c :: rest) := by
  have hbracket : c ≠ ']' := by
    rintro rfl
    exact h (by decide)
  simp [firstItem, skipBlanks_of_startsItem h, hbracket]

/-- After a comma the next item is read. -/
theorem laterItem_of_startsItem {c : Char} (h : StartsItem c) :
    laterItem (fuel + 1) (.char ',' :: .char c :: rest) = item fuel (.char c :: rest) := by
  have hbracket : c ≠ ']' := by
    rintro rfl
    exact h (by decide)
  have hcomma : skipBlanks (.char ',' :: .char c :: rest) = .char ',' :: .char c :: rest := rfl
  simp [laterItem, hcomma, skipBlanks_of_startsItem h, hbracket]

/-! ## Values -/

/-- A value that some node has. -/
def IsRead (depth : Nat) (v : Value) : Prop := ∃ n, Value.ofNode depth n = .ok v

theorem IsRead.items {vs : List Value} (h : IsRead depth (.array vs)) :
    depth < maxNesting ∧ ∀ v ∈ vs, IsRead (depth + 1) v := by
  obtain ⟨n, hn⟩ := h
  cases ofNode_eq_ok_iff.1 hn with
  | array shallow items ended =>
    refine ⟨shallow, fun v hv => ?_⟩
    obtain ⟨n, -, hn⟩ := exists_mem_of_forall₂ items hv
    exact ⟨n, hn⟩

theorem IsRead.members {ms : List (String × Value)} (h : IsRead depth (.object ms)) :
    depth < maxNesting ∧ Dictionary.IsSorted ms ∧ ∀ m ∈ ms, IsRead (depth + 1) m.2 := by
  obtain ⟨n, hn⟩ := h
  cases ofNode_eq_ok_iff.1 hn with
  | object shallow held made ended =>
    subst made
    refine ⟨shallow, Dictionary.isSorted_ofList, fun m hm => ?_⟩
    obtain ⟨member, -, hmember⟩ := exists_mem_of_forall₂ held (Dictionary.mem_of_mem_ofList hm)
    exact ⟨member.2, hmember.2⟩

/-- The node of a string, after it was passed. -/
private def stringNode (body : Rest) : Except Failure Rest → Node × Option Rest
  | .ok stop => (.string (.char '"' :: body) stop ((string body).map (·.1)), some stop)
  | .error f => (.broken (.char '"' :: body) (stringBreak body f), none)

theorem node_stringText (s : String) :
    node (fuel + 1) ((stringText s).map .char ++ rest)
      = (.string ((stringText s).map .char ++ rest) rest (.ok s), some rest) := by
  obtain ⟨hstring, hpass⟩ := @string_text rest s
  have hnode : node (fuel + 1) (.char '"' :: ((stringTail s).map .char ++ rest))
      = stringNode ((stringTail s).map .char ++ rest) (passString ((stringTail s).map .char ++ rest)) := rfl
  rw [hpass, stringNode, hstring] at hnode
  exact hnode

/-- A member is its key and what stands after the colon. -/
theorem member_stringTail {k : String} {stop left : Rest} {n : Node}
    (hnode : node fuel stop = (n, some left)) :
    ∃ key : Key, key.text = .ok k ∧
      member (fuel + 1) ((stringTail k).map .char ++ .char ':' :: stop)
        = let (members, ending, left) := laterMember fuel left
          ((key, n) :: members, ending, left) := by
  obtain ⟨hstring, hpass⟩ := @string_text (.char ':' :: stop) k
  have hcolon : colon (.char ':' :: stop) = .ok stop := rfl
  refine ⟨⟨(stringTail k).map .char ++ .char ':' :: stop, .ok k, settle (.char ':' :: stop)⟩, rfl, ?_⟩
  rw [member, hpass]
  simp only [hcolon, hnode, hstring]
  rfl

theorem isDelimited_char {c : Char} (h : c ∈ [',', ']', '\x7d']) : IsDelimited (.char c :: rest) :=
  .inr ⟨c, h, rest, rfl⟩

theorem node_bracket {inner : Rest} {nodes : List Node} {ending : ListEnd} {left : Option Rest}
    (h : firstItem fuel inner = (nodes, ending, left)) :
    node (fuel + 1) (.char '[' :: inner) = (.array (.char '[' :: inner) nodes ending, left) := by
  have hnode : node (fuel + 1) (.char '[' :: inner)
      = (.array (.char '[' :: inner) (firstItem fuel inner).1 (firstItem fuel inner).2.1,
        (firstItem fuel inner).2.2) := rfl
  rw [hnode, h]

theorem node_brace {inner : Rest} {members : List (Key × Node)} {ending : ObjectEnd}
    {left : Option Rest} (h : firstMember fuel inner = (members, ending, left)) :
    node (fuel + 1) (.char '\x7b' :: inner) = (.object (.char '\x7b' :: inner) members ending, left) := by
  have hnode : node (fuel + 1) (.char '\x7b' :: inner)
      = (.object (.char '\x7b' :: inner) (firstMember fuel inner).1 (firstMember fuel inner).2.1,
        (firstMember fuel inner).2.2) := rfl
  rw [hnode, h]

theorem item_of_node {pieces left : Rest} {n : Node} (h : node fuel pieces = (n, some left)) :
    item (fuel + 1) pieces
      = let (nodes, ending, left) := laterItem fuel left
        (n :: nodes, ending, left) := by
  rw [item, h]

theorem membersText_eq {k : String} {v : Value} {ms : List (String × Value)} :
    Value.membersText ((k, v) :: ms) = '"' :: (Value.membersText ((k, v) :: ms)).tail := by
  cases ms <;> rfl

theorem membersText_tail_single {k : String} {v : Value} :
    (Value.membersText [(k, v)]).tail.map .char ++ rest
      = (stringTail k).map .char ++ .char ':' :: (v.text.map .char ++ .char '\x7d' :: rest) := by
  show (stringTail k ++ ':' :: (v.text ++ ['\x7d'])).map .char ++ rest = _
  simp

theorem membersText_tail_cons {k : String} {v : Value} {m : String × Value}
    {ms : List (String × Value)} :
    (Value.membersText ((k, v) :: m :: ms)).tail.map .char ++ rest
      = (stringTail k).map .char ++ .char ':' ::
        (v.text.map .char ++ .char ',' :: ((Value.membersText (m :: ms)).map .char ++ rest)) := by
  show (stringTail k ++ ':' :: (v.text ++ ',' :: Value.membersText (m :: ms))).map .char ++ rest = _
  simp

-- The induction is on the fuel. From a list to its first item and from an item to the next are three calls at most,
-- and each of these ways passes a character, so that three units for each character are enough.
mutual

/-- A value is read back from its text. -/
theorem node_text {depth : Nat} : ∀ {v : Value} {fuel : Nat} {rest : Rest}, v.HasOnlyIntegers →
    IsRead depth v → 3 * v.text.length ≤ fuel + 1 → IsDelimited rest →
    ∃ n, node (fuel + 1) (v.text.map .char ++ rest) = (n, some rest) ∧
      Value.ofNode depth n = .ok v ∧ n.HasUniqueKeys
  | .null, _, _, _, _, _, _ => ⟨_, rfl, rfl, trivial⟩
  | .bool true, _, _, _, _, _, _ => ⟨_, rfl, rfl, trivial⟩
  | .bool false, _, _, _, _, _, _ => ⟨_, rfl, rfl, trivial⟩
  | .number (.double _), _, _, hintegers, _, _, _ => hintegers.elim
  | .number (.integer _), _, _, hintegers, _, _, hrest =>
    ⟨_, node_integerText hintegers hrest, rfl, trivial⟩
  | .string s, _, _, _, _, _, _ => ⟨_, node_stringText s, rfl, trivial⟩
  | .array [], fuel, rest, _, hread, hfuel, _ => by
    simp only [Value.text, Value.itemsText, List.length_cons, List.length_nil] at hfuel
    obtain ⟨fuel, rfl⟩ := Nat.exists_eq_add_of_le' (show 1 ≤ fuel by omega)
    exact ⟨.array _ [] (.closed rest), rfl,
      ofNode_eq_ok_iff.2 (.array hread.items.1 .nil rfl), trivial⟩
  | .array (v :: vs), fuel, rest, hintegers, hread, hfuel, _ => by
    simp only [Value.text, List.length_cons] at hfuel
    obtain ⟨fuel, rfl⟩ := Nat.exists_eq_add_of_le' (show 2 ≤ fuel by omega)
    obtain ⟨nodes, hnodes, hvalues, hunique⟩ :=
      @item_text (depth + 1) v vs fuel rest hintegers hread.items.2 (by omega)
    obtain ⟨c, tail, htext, hc⟩ := itemsText_startsItem hintegers
    have hfirst : firstItem (fuel + 2) ((Value.itemsText (v :: vs)).map .char ++ rest)
        = (nodes, .closed rest, some rest) := by
      rw [htext] at hnodes ⊢
      exact (firstItem_of_startsItem hc).trans hnodes
    exact ⟨.array _ nodes (.closed rest), node_bracket hfirst,
      ofNode_eq_ok_iff.2 (.array hread.items.1 hvalues rfl), hunique⟩
  | .object [], fuel, rest, _, hread, hfuel, _ => by
    simp only [Value.text, Value.membersText, List.length_cons, List.length_nil] at hfuel
    obtain ⟨fuel, rfl⟩ := Nat.exists_eq_add_of_le' (show 1 ≤ fuel by omega)
    exact ⟨.object _ [] (.closed rest), rfl,
      ofNode_eq_ok_iff.2 (.object hread.members.1 .nil rfl rfl), List.nodup_nil, trivial⟩
  | .object ((k, v) :: ms), fuel, rest, hintegers, hread, hfuel, _ => by
    obtain ⟨hdepth, hsorted, hmembers⟩ := hread.members
    simp only [Value.text, List.length_cons] at hfuel
    obtain ⟨fuel, rfl⟩ := Nat.exists_eq_add_of_le' (show 2 ≤ fuel by omega)
    obtain ⟨members, htaken, hheld, hunique⟩ :=
      @member_text (depth + 1) k v ms fuel rest hintegers hmembers (by omega)
    have hfirst : firstMember (fuel + 2) ((Value.membersText ((k, v) :: ms)).map .char ++ rest)
        = (members, .closed rest, some rest) := by
      rw [membersText_eq]
      exact htaken
    -- the entries of a value are in order of key, so no key comes again
    have hnodup : (keyTexts members).Nodup :=
      keyTexts_eq_of_forall₂ (hheld.imp fun _ _ h => h.1) ▸ Dictionary.nodup_keys_of_isSorted hsorted
    exact ⟨.object _ members (.closed rest), node_brace hfirst,
      ofNode_eq_ok_iff.2 (.object hdepth hheld (Dictionary.ofList_of_isSorted hsorted) rfl),
      hnodup, hunique⟩
termination_by _ fuel => fuel

/-- The items of a list are read back from their text. -/
theorem item_text {depth : Nat} : ∀ {v : Value} {vs : List Value} {fuel : Nat} {rest : Rest},
    ItemsHaveOnlyIntegers (v :: vs) → (∀ w ∈ v :: vs, IsRead depth w) →
    3 * (Value.itemsText (v :: vs)).length ≤ fuel + 1 →
    ∃ nodes, item (fuel + 1) ((Value.itemsText (v :: vs)).map .char ++ rest)
        = (nodes, .closed rest, some rest) ∧
      List.Forall₂ (fun n v => Value.ofNode depth n = .ok v) nodes (v :: vs) ∧
      ItemsHaveUniqueKeys nodes
  | v, [], fuel, rest, hintegers, hread, hfuel => by
    simp only [Value.itemsText, List.length_append, List.length_singleton] at hfuel
    obtain ⟨fuel, rfl⟩ := Nat.exists_eq_add_of_le' (show 1 ≤ fuel by omega)
    obtain ⟨n, hn, hvalue, hunique⟩ := @node_text depth v fuel (.char ']' :: rest) hintegers.1
      (hread v List.mem_cons_self) (by omega) (isDelimited_char (by decide))
    refine ⟨[n], ?_, .cons hvalue .nil, hunique, trivial⟩
    rw [Value.itemsText, List.map_append, List.append_assoc]
    exact item_of_node hn
  | v, w :: vs, fuel, rest, hintegers, hread, hfuel => by
    simp only [Value.itemsText, List.length_append, List.length_cons] at hfuel
    obtain ⟨fuel, rfl⟩ := Nat.exists_eq_add_of_le' (show 2 ≤ fuel by omega)
    obtain ⟨n, hn, hvalue, hunique⟩ := @node_text depth v (fuel + 1)
      (.char ',' :: ((Value.itemsText (w :: vs)).map .char ++ rest)) hintegers.1
      (hread v List.mem_cons_self) (by omega) (isDelimited_char (by decide))
    obtain ⟨nodes, hnodes, hvalues, huniques⟩ := @item_text depth w vs fuel rest hintegers.2
      (fun u hu => hread u (List.mem_cons_of_mem _ hu)) (by omega)
    refine ⟨n :: nodes, ?_, .cons hvalue hvalues, hunique, huniques⟩
    rw [Value.itemsText, List.map_append, List.append_assoc]
    have hlater : laterItem (fuel + 2) (.char ',' :: ((Value.itemsText (w :: vs)).map .char ++ rest))
        = (nodes, .closed rest, some rest) := by
      obtain ⟨c, tail, htext, hc⟩ := itemsText_startsItem hintegers.2
      rw [htext] at hnodes ⊢
      exact (laterItem_of_startsItem hc).trans hnodes
    refine (item_of_node hn).trans ?_
    rw [hlater]
termination_by _ _ fuel => fuel

/-- The members of an object are read back from their text. -/
theorem member_text {depth : Nat} : ∀ {k : String} {v : Value} {ms : List (String × Value)}
    {fuel : Nat} {rest : Rest}, MembersHaveOnlyIntegers ((k, v) :: ms) →
    (∀ m ∈ (k, v) :: ms, IsRead depth m.2) →
    3 * (Value.membersText ((k, v) :: ms)).length ≤ fuel + 1 →
    ∃ members, member (fuel + 1) ((Value.membersText ((k, v) :: ms)).tail.map .char ++ rest)
        = (members, .closed rest, some rest) ∧
      List.Forall₂ (HasEntry depth) members ((k, v) :: ms) ∧ MembersHaveUniqueKeys members
  | k, v, [], fuel, rest, hintegers, hread, hfuel => by
    simp only [Value.membersText, List.length_append, List.length_cons, List.length_nil] at hfuel
    obtain ⟨fuel, rfl⟩ := Nat.exists_eq_add_of_le' (show 1 ≤ fuel by omega)
    obtain ⟨n, hn, hvalue, hunique⟩ := @node_text depth v fuel (.char '\x7d' :: rest) hintegers.1
      (hread (k, v) List.mem_cons_self) (by omega) (isDelimited_char (by decide))
    obtain ⟨key, hkey, hmember⟩ := @member_stringTail (fuel + 1) k _ _ _ hn
    refine ⟨[(key, n)], ?_, .cons ⟨hkey, hvalue⟩ .nil, hunique, trivial⟩
    rw [membersText_tail_single]
    exact hmember
  | k, v, (k', v') :: ms, fuel, rest, hintegers, hread, hfuel => by
    simp only [Value.membersText, List.length_append, List.length_cons] at hfuel
    obtain ⟨fuel, rfl⟩ := Nat.exists_eq_add_of_le' (show 2 ≤ fuel by omega)
    obtain ⟨n, hn, hvalue, hunique⟩ := @node_text depth v (fuel + 1)
      (.char ',' :: ((Value.membersText ((k', v') :: ms)).map .char ++ rest)) hintegers.1
      (hread (k, v) List.mem_cons_self) (by omega) (isDelimited_char (by decide))
    obtain ⟨members, hmembers, hheld, huniques⟩ := @member_text depth k' v' ms fuel rest hintegers.2
      (fun m hm => hread m (List.mem_cons_of_mem _ hm)) (by omega)
    obtain ⟨key, hkey, hmember⟩ := @member_stringTail (fuel + 2) k _ _ _ hn
    have hlater : laterMember (fuel + 2)
        (.char ',' :: ((Value.membersText ((k', v') :: ms)).map .char ++ rest))
        = (members, .closed rest, some rest) := by
      rw [membersText_eq]
      exact hmembers
    refine ⟨(key, n) :: members, ?_, .cons ⟨hkey, hvalue⟩ hheld, hunique, huniques⟩
    rw [membersText_tail_cons, hmember, hlater]
termination_by _ _ _ fuel => fuel

end

/-! ## Documents -/

/-- A value that is written as a text is the document of this text, and no object has a key twice there. -/
theorem ofText_encode {v : Value} (hintegers : v.HasOnlyIntegers) (hread : IsRead 0 v) :
    Value.ofNode 0 (Node.ofText v.encode) = .ok v ∧ (Node.ofText v.encode).HasUniqueKeys ∧
      HasNothingAfter v.encode := by
  have hpieces : Text.piecesOf v.encode = v.text.map .char ++ [] := by
    rw [Text.piecesOf, Value.encode, String.toList_ofList, List.append_nil]
  obtain ⟨n, hn, hvalue, hunique⟩ := @node_text 0 v (3 * (v.text.map Piece.char ++ []).length + 2) []
    hintegers hread (by rw [List.append_nil, List.length_map]; omega) (.inl rfl)
  have hnode : Node.ofPieces (Text.piecesOf v.encode) = (n, some []) := by
    rw [hpieces]
    exact hn
  rw [HasNothingAfter, Node.ofText, hnode]
  exact ⟨hvalue, hunique, rfl⟩

/-- Decoders that look at values make the same of a text and of what is written for its value. -/
theorem decodeText_encode {α : Type} {d : Decoder α} (hd : d.ReadsValues) {text : String} {v : Value}
    (hv : decodeText Decoder.value text = .ok v) (hunique : (Node.ofText text).HasUniqueKeys)
    (hintegers : v.HasOnlyIntegers) (a : α) :
    decodeText d text = .ok a ↔ decodeText d v.encode = .ok a := by
  obtain ⟨hread, hwhole⟩ := decodeText_eq_ok_iff.1 hv
  obtain ⟨hread', hunique', hwhole'⟩ := ofText_encode hintegers ⟨_, hread⟩
  rw [decodeText_eq_ok_iff, decodeText_eq_ok_iff]
  constructor
  · exact fun h => ⟨hd hread hread' hunique hunique' h.1, hwhole'⟩
  · exact fun h => ⟨hd hread' hread hunique' hunique h.1, hwhole⟩

end Provenance.Json
