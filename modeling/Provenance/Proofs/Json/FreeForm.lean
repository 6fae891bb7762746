import Provenance.Proofs.Json.RoundTrip

/-!
# Free-form values

Values that are read back wherever they are written: they hold no numbers but integers of 64 bits, and they do
not nest too deep. An object of such values, its members in any order, is the document of its text
(`ofText_object`), which is one line (`newline_not_mem_text`).
-/

namespace Provenance.Json

/-- A value that holds no numbers but integers of 64 bits, and in which lists and objects nest at most so deep.
The members of an object are in order of key, each key once. -/
def Value.IsFreeForm : (levels : Nat) → Value → Prop
  | _, .null | _, .bool _ | _, .string _ => True
  | _, .number (.integer k) => FitsWord k
  | _, .number (.double _) => False
  | 0, .array _ | 0, .object _ => False
  | levels + 1, .array items => ∀ v ∈ items, v.IsFreeForm levels
  | levels + 1, .object members => Dictionary.IsSorted members ∧ ∀ m ∈ members, m.2.IsFreeForm levels

variable {depth levels : Nat} {v : Value}

theorem itemsHaveOnlyIntegers_iff {vs : List Value} :
    ItemsHaveOnlyIntegers vs ↔ ∀ v ∈ vs, v.HasOnlyIntegers := by
  induction vs with
  | nil => simp [ItemsHaveOnlyIntegers]
  | cons v vs ih => simp [ItemsHaveOnlyIntegers, ih]

theorem membersHaveOnlyIntegers_iff {ms : List (String × Value)} :
    MembersHaveOnlyIntegers ms ↔ ∀ m ∈ ms, m.2.HasOnlyIntegers := by
  induction ms with
  | nil => simp [MembersHaveOnlyIntegers]
  | cons m ms ih => simp [MembersHaveOnlyIntegers, ih]

namespace Value.IsFreeForm

theorem hasOnlyIntegers (h : v.IsFreeForm levels) : v.HasOnlyIntegers := by
  induction levels generalizing v with
  | zero =>
    cases v with
    | array | object => exact h.elim
    | number n => cases n <;> exact h
    | _ => trivial
  | succ levels ih =>
    cases v with
    | array items => exact itemsHaveOnlyIntegers_iff.2 fun v hv => ih (h v hv)
    | object members => exact membersHaveOnlyIntegers_iff.2 fun m hm => ih (h.2 m hm)
    | number n => cases n <;> exact h
    | _ => trivial

end Value.IsFreeForm

/-! ## One line -/

/-- A newline in a string is written as an escape. -/
theorem newline_not_mem_escapedChar (c : Char) : '\n' ∉ escapedChar c := by
  by_cases hcontrol : c.toNat < 32
  · rw [← Char.ofNat_toNat c]
    -- each of the controls has an escape of its own
    interval_cases c.toNat <;> decide
  · have hplain : c ≠ '\n' := by
      rintro rfl
      exact hcontrol (by decide)
    have hshort : escapedChar c = ['\\', '"'] ∨ escapedChar c = ['\\', '\\'] ∨ escapedChar c = [c] := by
      unfold escapedChar
      repeat' split
      all_goals first | omega | simp
    rcases hshort with h | h | h
    · rw [h]
      decide
    · rw [h]
      decide
    · rw [h, List.mem_singleton]
      exact hplain.symm

theorem newline_not_mem_stringText (s : String) : '\n' ∉ stringText s := by
  rw [stringText, List.mem_cons, List.mem_append, List.mem_flatMap]
  rintro (h | ⟨c, -, hc⟩ | h)
  · exact absurd h (by decide)
  · exact newline_not_mem_escapedChar c hc
  · exact absurd h (by decide)

theorem newline_not_mem_integerText (k : Int) : '\n' ∉ integerText k := by
  have hnatural : ∀ n, '\n' ∉ naturalText n := fun n h => absurd (isDigit_of_mem_naturalText h) (by decide)
  cases k with
  | ofNat n => exact hnatural n
  | negSucc n => exact List.not_mem_cons_of_ne_of_not_mem (by decide) (hnatural (n + 1))

mutual

/-- The text of a value is one line. -/
theorem newline_not_mem_text : ∀ {v : Value}, v.HasOnlyIntegers → '\n' ∉ v.text
  | .null, _ | .bool true, _ | .bool false, _ => by decide
  | .number (.integer k), _ => newline_not_mem_integerText k
  | .string s, _ => newline_not_mem_stringText s
  | .array _, h => List.not_mem_cons_of_ne_of_not_mem (by decide) (newline_not_mem_itemsText h)
  | .object _, h => List.not_mem_cons_of_ne_of_not_mem (by decide) (newline_not_mem_membersText h)

theorem newline_not_mem_itemsText :
    ∀ {vs : List Value}, ItemsHaveOnlyIntegers vs → '\n' ∉ Value.itemsText vs
  | [], _ => by decide
  | [v], h => by
    rw [Value.itemsText, List.mem_append, not_or]
    exact ⟨newline_not_mem_text h.1, by decide⟩
  | v :: w :: vs, h => by
    rw [Value.itemsText, List.mem_append, List.mem_cons, not_or, not_or]
    exact ⟨newline_not_mem_text h.1, by decide, newline_not_mem_itemsText h.2⟩

theorem newline_not_mem_membersText :
    ∀ {ms : List (String × Value)}, MembersHaveOnlyIntegers ms → '\n' ∉ Value.membersText ms
  | [], _ => by decide
  | [(k, v)], h => by
    rw [Value.membersText, List.mem_append, List.mem_cons, List.mem_append, not_or, not_or, not_or]
    exact ⟨newline_not_mem_stringText k, by decide, newline_not_mem_text h.1, by decide⟩
  | (k, v) :: m :: ms, h => by
    rw [Value.membersText, List.mem_append, List.mem_cons, List.mem_append, List.mem_cons, not_or, not_or,
      not_or, not_or]
    exact ⟨newline_not_mem_stringText k, by decide, newline_not_mem_text h.1, by decide,
      newline_not_mem_membersText h.2⟩

end

/-! ## Nodes of values -/

theorem exists_forall₂ {α β : Type} {R : α → β → Prop} {bs : List β} (h : ∀ b ∈ bs, ∃ a, R a b) :
    ∃ as, List.Forall₂ R as bs := by
  induction bs with
  | nil => exact ⟨[], .nil⟩
  | cons b bs ih =>
    obtain ⟨a, ha⟩ := h b List.mem_cons_self
    obtain ⟨as, has⟩ := ih fun b hb => h b (List.mem_cons_of_mem _ hb)
    exact ⟨a :: as, .cons ha has⟩

theorem isRead_array {vs : List Value} (hdepth : depth < maxNesting) (h : ∀ v ∈ vs, IsRead (depth + 1) v) :
    IsRead depth (.array vs) := by
  obtain ⟨nodes, hnodes⟩ := exists_forall₂ h
  exact ⟨.array [] nodes (.closed []), ofNode_eq_ok_iff.2 (.array hdepth hnodes rfl)⟩

theorem isRead_object {ms : List (String × Value)} (hdepth : depth < maxNesting)
    (hsorted : Dictionary.IsSorted ms) (h : ∀ m ∈ ms, IsRead (depth + 1) m.2) :
    IsRead depth (.object ms) := by
  have hentries : ∀ m ∈ ms, ∃ member, HasEntry (depth + 1) member m := by
    intro m hm
    obtain ⟨n, hn⟩ := h m hm
    exact ⟨(⟨[], .ok m.1, []⟩, n), rfl, hn⟩
  obtain ⟨members, hmembers⟩ := exists_forall₂ hentries
  exact ⟨.object [] members (.closed []),
    ofNode_eq_ok_iff.2 (.object hdepth hmembers (Dictionary.ofList_of_isSorted hsorted) rfl)⟩

/-- A free-form value may stand wherever it does not nest too deep. -/
theorem Value.IsFreeForm.isRead (h : v.IsFreeForm levels) (hdepth : depth + levels ≤ maxNesting) :
    IsRead depth v := by
  induction levels generalizing v depth with
  | zero =>
    cases v with
    | null => exact ⟨.null [] [], rfl⟩
    | bool b => exact ⟨.bool [] [] b, rfl⟩
    | number n => exact ⟨.number [] [] (.ok n), rfl⟩
    | string s => exact ⟨.string [] [] (.ok s), rfl⟩
    | array | object => exact h.elim
  | succ levels ih =>
    cases v with
    | null => exact ⟨.null [] [], rfl⟩
    | bool b => exact ⟨.bool [] [] b, rfl⟩
    | number n => exact ⟨.number [] [] (.ok n), rfl⟩
    | string s => exact ⟨.string [] [] (.ok s), rfl⟩
    | array items => exact isRead_array (by omega) fun v hv => ih (h v hv) (by omega)
    | object members => exact isRead_object (by omega) h.1 fun m hm => ih (h.2 m hm) (by omega)

/-- A value that stands somewhere does not nest deeper than is left there. -/
theorem IsRead.isFreeForm (h : IsRead depth v) (hintegers : v.HasOnlyIntegers)
    (hdepth : maxNesting ≤ depth + levels) : v.IsFreeForm levels := by
  induction levels generalizing v depth with
  | zero =>
    cases v with
    | array =>
      have hshallow := h.items.1
      omega
    | object =>
      have hshallow := h.members.1
      omega
    | number n => cases n <;> exact hintegers
    | _ => trivial
  | succ levels ih =>
    cases v with
    | array items =>
      exact fun v hv => ih (h.items.2 v hv) (itemsHaveOnlyIntegers_iff.1 hintegers v hv) (by omega)
    | object members =>
      obtain ⟨-, hsorted, hread⟩ := h.members
      exact ⟨hsorted, fun m hm => ih (hread m hm) (membersHaveOnlyIntegers_iff.1 hintegers m hm) (by omega)⟩
    | number n => cases n <;> exact hintegers
    | _ => trivial

/-! ## Documents -/

/-- An object is the document of its text, its members in the order in which they stand. -/
theorem ofText_object {ms : List (String × Value)} (hne : ms ≠ [])
    (hfree : ∀ m ∈ ms, m.2.IsFreeForm levels) (hlevels : levels < maxNesting) :
    ∃ start members stop, Node.ofText (Value.object ms).encode = .object start members (.closed stop) ∧
      List.Forall₂ (HasEntry 1) members ms ∧ HasNothingAfter (Value.object ms).encode := by
  obtain ⟨⟨k, v⟩, ms, rfl⟩ := List.exists_cons_of_ne_nil hne
  have hintegers : MembersHaveOnlyIntegers ((k, v) :: ms) :=
    membersHaveOnlyIntegers_iff.2 fun m hm => (hfree m hm).hasOnlyIntegers
  have hread : ∀ m ∈ (k, v) :: ms, IsRead 1 m.2 := fun m hm => (hfree m hm).isRead (by omega)
  have hpieces : Text.piecesOf (Value.object ((k, v) :: ms)).encode
      = .char '\x7b' :: ((Value.membersText ((k, v) :: ms)).map .char ++ []) := by
    rw [Text.piecesOf, Value.encode, String.toList_ofList, List.append_nil]
    rfl
  obtain ⟨fuel, hfuel⟩ : ∃ fuel, fuel
      = 3 * (.char '\x7b' :: ((Value.membersText ((k, v) :: ms)).map Text.Piece.char ++ [])).length := ⟨_, rfl⟩
  have henough : 3 * (Value.membersText ((k, v) :: ms)).length ≤ fuel + 1 := by
    simp only [List.length_cons, List.length_append, List.length_map] at hfuel
    omega
  obtain ⟨members, hmember, hheld, -⟩ := @member_text 1 k v ms fuel [] hintegers hread henough
  have hfirst : firstMember (fuel + 2) ((Value.membersText ((k, v) :: ms)).map .char ++ [])
      = (members, .closed [], some []) := by
    rw [membersText_eq]
    exact hmember
  have hnode : Node.ofPieces (Text.piecesOf (Value.object ((k, v) :: ms)).encode)
      = (.object (Text.piecesOf (Value.object ((k, v) :: ms)).encode) members (.closed []), some []) := by
    rw [hpieces, Node.ofPieces, ← hfuel]
    exact node_brace hfirst
  rw [HasNothingAfter, Node.ofText, hnode]
  exact ⟨_, members, [], rfl, hheld, rfl⟩

end Provenance.Json
