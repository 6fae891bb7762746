import Provenance.Proofs.Json.Reading

/-!
# Decoders that look at values

What the decoders of lists and dictionaries accept, and that decoders make the same of two nodes that have one
value, so long as no object has a key twice (`Decoder.ReadsValues`).
-/

namespace Provenance.Json

variable {α β : Type}

/-- A decoder makes the same of two nodes with one value, unless one of them has a key twice. -/
def Decoder.ReadsValues (d : Decoder α) : Prop :=
  ∀ ⦃depth n n' v a⦄, Value.ofNode depth n = .ok v → Value.ofNode depth n' = .ok v →
    n.HasUniqueKeys → n'.HasUniqueKeys → d depth n = .ok a → d depth n' = .ok a

namespace Decoder

variable {d : Decoder α} {depth index : Nat}

/-- A member of a dictionary has a key and is decoded to something. -/
def ReadsEntry (d : Decoder α) (depth : Nat) (m : Key × Node) (entry : String × α) : Prop :=
  m.1.text = .ok entry.1 ∧ d depth m.2 = .ok entry.2

theorem members_eq_ok_iff {members : List (Key × Node)} {entries out : List (String × α)} :
    Decoder.members .text d depth entries members = .ok out ↔
      ∃ es, List.Forall₂ (d.ReadsEntry depth) members es ∧
        es.foldl (fun d e => Dictionary.insert e.1 e.2 d) entries = out := by
  induction members generalizing entries with
  | nil => simp [Decoder.members]
  | cons m members ih =>
    rw [Decoder.members]
    simp only [bind_eq_ok_iff, ih, List.forall₂_cons_left_iff]
    constructor
    · rintro ⟨k, hk, a, ha, es, hes, hout⟩
      exact ⟨(k, a) :: es, ⟨(k, a), es, ⟨hk, ha⟩, hes, rfl⟩, hout⟩
    · rintro ⟨_, ⟨⟨k, a⟩, es, ⟨hk, ha⟩, hes, rfl⟩, hout⟩
      exact ⟨k, hk, a, ha, es, hes, hout⟩

theorem dictionary_eq_ok_iff {start : Rest} {members : List (Key × Node)} {ending : ObjectEnd}
    {out : List (String × α)} :
    dictionary .text d depth (.object start members ending) = .ok out ↔
      depth < maxNesting ∧ ending.check = .ok () ∧
        ∃ es, List.Forall₂ (d.ReadsEntry (depth + 1)) members es ∧ Dictionary.ofList es = out := by
  rw [dictionary, nested_eq_ok_iff, bind_eq_ok_iff]
  simp only [members_eq_ok_iff]
  refine and_congr_right fun _ => ?_
  constructor
  · rintro ⟨made, ⟨es, hes, rfl⟩, hend⟩
    cases ending with
    | broken | brokenKey => cases hend
    | noColon key b =>
      obtain ⟨_, -, hbreak⟩ := bind_eq_ok_iff.1 hend
      cases hbreak
    | closed | unreached =>
      cases hend
      exact ⟨rfl, es, hes, rfl⟩
  · rintro ⟨hend, es, hes, rfl⟩
    refine ⟨_, ⟨es, hes, rfl⟩, ?_⟩
    obtain ⟨stop, rfl⟩ | rfl := ObjectEnd.check_eq_ok_iff.1 hend <;> rfl

theorem isSorted_of_dictionary {n : Node} {out : List (String × α)}
    (h : dictionary .text d depth n = .ok out) : Dictionary.IsSorted out := by
  cases n with
  | object start members ending =>
    obtain ⟨-, -, es, -, rfl⟩ := dictionary_eq_ok_iff.1 h
    exact Dictionary.isSorted_ofList
  | _ => cases h

/-- What every value read by a decoder is, every value in a dictionary is. It stands one level deeper. -/
theorem forall_of_dictionary {P : α → Prop} (hP : ∀ ⦃n a⦄, d (depth + 1) n = .ok a → P a) {n : Node}
    {out : List (String × α)} (h : dictionary .text d depth n = .ok out) : ∀ entry ∈ out, P entry.2 := by
  cases n with
  | object start members ending =>
    obtain ⟨-, -, es, hes, rfl⟩ := dictionary_eq_ok_iff.1 h
    intro entry hentry
    obtain ⟨m, -, -, hread⟩ := exists_mem_of_forall₂ hes (Dictionary.mem_of_mem_ofList hentry)
    exact hP hread
  | _ => cases h

namespace ReadsValues

theorem value : ReadsValues Decoder.value := by
  intro depth n n' v a hv hv' _ _ ha
  exact hv'.trans (hv.symm.trans ha)

theorem string : ReadsValues Decoder.string := by
  intro depth n n' v a hv hv' _ _ ha
  cases ofNode_eq_ok_iff.1 hv with
  | string =>
    cases ofNode_eq_ok_iff.1 hv'
    exact ha
  | _ => cases ha

theorem bool : ReadsValues Decoder.bool := by
  intro depth n n' v a hv hv' _ _ ha
  cases ofNode_eq_ok_iff.1 hv with
  | bool =>
    cases ofNode_eq_ok_iff.1 hv'
    exact ha
  | _ => cases ha

theorem integer {name : String} {allowed : Int → Bool} : ReadsValues (Decoder.integer name allowed) := by
  intro depth n n' v a hv hv' _ _ ha
  cases ofNode_eq_ok_iff.1 hv with
  | @number _ _ k =>
    cases ofNode_eq_ok_iff.1 hv'
    cases k with
    | integer k =>
      rw [Decoder.integer] at ha ⊢
      split at ha
      · next hk =>
        rw [if_pos hk]
        exact ha
      · cases ha
    | double x => cases ha
  | _ => cases ha

theorem map (h : ReadsValues d) (f : α → β) : ReadsValues fun depth n => (d depth n).map f := by
  intro depth n n' v b hv hv' hn hn' hb
  obtain ⟨a, ha, rfl⟩ := map_eq_ok_iff.1 hb
  exact map_eq_ok_iff.2 ⟨a, h hv hv' hn hn' ha, rfl⟩

theorem uint64 : ReadsValues Decoder.uint64 := integer.map Int.toNat

theorem option (h : ReadsValues d) : ReadsValues (.option d) := by
  intro depth n n' v a hv hv' hn hn' ha
  have hmap := h.map some hv hv' hn hn' (a := a)
  cases ofNode_eq_ok_iff.1 hv <;> cases ofNode_eq_ok_iff.1 hv'
  case null.null => exact ha
  all_goals exact hmap ha

theorem list (h : ReadsValues d) : ReadsValues (.list d) := by
  intro depth n n' v as hv hv' hn hn' has
  cases ofNode_eq_ok_iff.1 hv with
  | array shallow items ended =>
    cases ofNode_eq_ok_iff.1 hv' with
    | array shallow' items' ended' =>
      rw [Decoder.list, nested_eq_ok_iff] at has ⊢
      obtain ⟨-, has⟩ := has
      obtain ⟨bs, hbs, has⟩ := bind_eq_ok_iff.1 has
      obtain ⟨_, -, has⟩ := bind_eq_ok_iff.1 has
      cases has
      have hunique := (List.forall₂_and_left _ _).2 ⟨itemsHaveUniqueKeys_iff.1 hn, items⟩
      have hunique' := (List.forall₂_and_left _ _).2 ⟨itemsHaveUniqueKeys_iff.1 hn', items'⟩
      have hbs' := forall₂_trans_symm (U := fun n a => d (depth + 1) n = .ok a)
        (fun hm' hm ha => h hm.2 hm'.2 hm.1 hm'.1 ha) hunique' hunique (items_eq_ok_iff.1 hbs)
      exact ⟨shallow', bind_eq_ok_iff.2
        ⟨_, items_eq_ok_iff.2 hbs', bind_eq_ok_iff.2 ⟨_, ended', rfl⟩⟩⟩
  | _ => cases has

theorem dictionary (h : ReadsValues d) : ReadsValues (.dictionary .text d) := by
  intro depth n n' v out hv hv' hn hn' hout
  cases ofNode_eq_ok_iff.1 hv with
  | object shallow held made ended =>
    cases ofNode_eq_ok_iff.1 hv' with
    | object shallow' held' made' ended' =>
      obtain ⟨-, -, es, hes, rfl⟩ := dictionary_eq_ok_iff.1 hout
      obtain ⟨es', hperm, hes'⟩ := exists_perm_of_same_members
        (fun hm hm' hunique hunique' hread => ⟨hm'.1.trans (hm.1.symm.trans hread.1),
          h hm.2 hm'.2 hunique hunique' hread.2⟩)
        held held' (made.trans made'.symm) hn hn' hes
      have hkeys : (Dictionary.keys es).Nodup := keyTexts_eq_of_forall₂ (hes.imp fun _ _ h => h.1) ▸ hn.1
      exact dictionary_eq_ok_iff.2
        ⟨shallow', ended', es', hes', (Dictionary.ofList_eq_of_perm hkeys hperm).symm⟩
  | _ => cases hout

end ReadsValues

end Decoder

/-! ## Texts -/

/-- The document at the start of a text. -/
def Node.ofText (text : String) : Node := (Node.ofPieces (Text.piecesOf text)).1

/-- Nothing but blanks follows the document at the start of a text. -/
def HasNothingAfter (text : String) : Prop :=
  skipBlanks ((Node.ofPieces (Text.piecesOf text)).2.getD []) = []

theorem decodeText_eq_ok_iff {d : Decoder α} {text : String} {a : α} :
    decodeText d text = .ok a ↔ d 0 (Node.ofText text) = .ok a ∧ HasNothingAfter text := by
  have hpieces : decodeText d text = .ok a ↔ decodePieces d (Text.piecesOf text) = .ok a := by
    show (decodePieces d (Text.piecesOf text)).mapError (Failure.message (Text.piecesOf text)) = _ ↔ _
    cases decodePieces d (Text.piecesOf text) <;> simp [Except.mapError]
  rw [hpieces, decodePieces, HasNothingAfter, Node.ofText, bind_eq_ok_iff]
  cases hleft : skipBlanks ((Node.ofPieces (Text.piecesOf text)).2.getD []) with
  | nil =>
    constructor
    · rintro ⟨b, hb, h⟩
      cases h
      exact ⟨hb, rfl⟩
    · exact fun h => ⟨a, h.1, rfl⟩
  | cons p rest =>
    constructor
    · rintro ⟨b, hb, h⟩
      cases h
    · exact fun h => by cases h.2

/-- What was read from bytes was read from the document at their start. -/
theorem decoder_of_decodeBytes {d : Decoder α} {bytes : Bytes} {a : α} (h : decodeBytes d bytes = .ok a) :
    d 0 (Node.ofPieces (Text.pieces bytes)).1 = .ok a := by
  obtain ⟨b, hb, hrest⟩ := bind_eq_ok_iff.1 (mapError_eq_ok_iff.1 h)
  dsimp only at hrest
  split at hrest <;> cases hrest
  exact hb

end Provenance.Json
