import Provenance.Log.Line
import Provenance.Proofs.Json.FreeForm
import Provenance.Proofs.Log.Spans

/-!
# The documents of a log

The document of a record is one line, from which it is read back (`decodeText_document`). Under each name its
fields have what the span in which the event happened tells, and only where it tells nothing what the event
tells (`fieldOf_document`). So a field of the event is lost when the span has one of its name.
-/

namespace Provenance.Log

/-! ## Fields of a document -/

/-- What an event tells under a name, as it is written in a document. Of values under one name the last counts. -/
def Event.told? (name : String) (e : Event) : Option Json.Value :=
  (Dictionary.get? name e.fields.reverse).map Value.toJson

/-- What a span tells under a name, as it is written in a document: its fields, and its own name. -/
def Span.told? (name : String) (s : Span) : Option Json.Value :=
  ((Dictionary.get? name s.fields).or (if name = "span_name" then some s.name else none)).map .string

/-- The field of a document under a name. -/
def fieldOf (name : String) (document : Json.Value) : Option Json.Value :=
  (document.get? "fields").bind fun fields => fields.get? name

/-- An integer that is logged is one of 64 bits. -/
def Value.FitsWord : Value → Prop
  | .integer n => Json.FitsWord n
  | _ => True

/-- A record as it can be made: the integers of the event are of 64 bits, and the span is one in which fields were
recorded. -/
structure Record.IsSound (r : Record) : Prop where
  words : ∀ field ∈ r.event.fields, field.2.FitsWord
  made : ∀ s, r.current? = some s → s.IsMade

variable {name : String} {r : Record} {time : String}

/-- A value is written as something that is read back. -/
theorem Value.isFreeForm_toJson {value : Value} (h : value.FitsWord) (levels : Nat) :
    value.toJson.IsFreeForm levels := by
  cases value with
  | text | shown | bool => cases levels <;> trivial
  | integer n => cases levels <;> exact h

theorem get?_ofList_fields (e : Event) :
    Dictionary.get? name (Dictionary.ofList (e.fields.map fun f => (f.1, f.2.toJson))) = e.told? name := by
  rw [Dictionary.get?_ofList, ← List.map_reverse, Dictionary.get?_map]
  rfl

namespace Record

/-- What the event tells shows where the span tells nothing. -/
theorem get?_allFields (h : r.IsSound) :
    Dictionary.get? name r.allFields = (r.current?.bind (Span.told? name)).or (r.event.told? name) := by
  rw [allFields]
  cases hspan : r.current? with
  | none => exact get?_ofList_fields r.event
  | some s =>
    have hkept : Dictionary.get? name (s.fields.map fun e => (e.1, Json.Value.string e.2)).reverse
        = (Dictionary.get? name s.fields).map .string := by
      rw [← List.map_reverse, Dictionary.get?_map, Dictionary.get?_reverse_of_isSorted (h.made s hspan).isSorted]
    -- what was put in last is found first: the fields of the span, then its name, then the fields of the event
    have hmerged : Dictionary.get? name (s.fields.foldl
          (fun all e => Dictionary.insert e.1 (Json.Value.string e.2) all)
          (Dictionary.insert "span_name" (.string s.name)
            (Dictionary.ofList (r.event.fields.map fun f => (f.1, f.2.toJson)))))
        = ((Dictionary.get? name s.fields).map .string).or
          (if name = "span_name" then some (.string s.name) else r.event.told? name) := by
      have hfold := @Dictionary.get?_foldl_insert _ _ _ _ _ name
        (s.fields.map fun e => (e.1, Json.Value.string e.2))
        (Dictionary.insert "span_name" (.string s.name)
          (Dictionary.ofList (r.event.fields.map fun f => (f.1, f.2.toJson))))
      rw [List.foldl_map, hkept, Dictionary.get?_insert, get?_ofList_fields] at hfold
      exact hfold
    refine hmerged.trans ?_
    rw [Option.bind_some, Span.told?]
    cases Dictionary.get? name s.fields with
    | some value => rfl
    | none => by_cases hname : name = "span_name" <;> simp [hname]

theorem isSorted_allFields : Dictionary.IsSorted r.allFields := by
  rw [allFields]
  cases r.current? with
  | none => exact Dictionary.isSorted_ofList
  | some s =>
    have hnamed : Dictionary.IsSorted (Dictionary.insert "span_name" (.string s.name)
        (Dictionary.ofList (r.event.fields.map fun f => (f.1, f.2.toJson)))) :=
      Dictionary.isSorted_insert Dictionary.isSorted_ofList
    exact List.foldlRecOn s.fields _ hnamed fun _ hsorted _ _ => Dictionary.isSorted_insert hsorted

theorem isFreeForm_of_mem_allFields (h : r.IsSound) (levels : Nat) :
    ∀ field ∈ r.allFields, field.2.IsFreeForm levels := by
  intro field hfield
  have hget := (Dictionary.get?_eq_some_iff isSorted_allFields).2 hfield
  rw [get?_allFields h, Option.or_eq_some_iff] at hget
  obtain hspan | ⟨-, hevent⟩ := hget
  · obtain ⟨s, -, htold⟩ := Option.bind_eq_some_iff.1 hspan
    obtain ⟨text, -, hvalue⟩ := Option.map_eq_some_iff.1 htold
    rw [← hvalue]
    cases levels <;> trivial
  · obtain ⟨value, hvalue, htold⟩ := Option.map_eq_some_iff.1 hevent
    rw [← htold]
    exact Value.isFreeForm_toJson (h.words _ (List.mem_reverse.1 (Dictionary.mem_of_get? hvalue))) levels

end Record

/-! ## Documents -/

/-- The members of the document of a record. -/
def Record.members (time : String) (r : Record) : List (String × Json.Value) :=
  memberOf "fields" (if r.allFields.isEmpty then none else some (.object r.allFields)) ++
    ("level", .string r.event.level.text) ::
    (memberOf "message" (r.event.message.text?.map .string) ++ [
      ("service", .string (serviceOf r.event.target)),
      ("target", .string r.event.target),
      ("timestamp", .string time)])

theorem keys_memberOf_sublist {value : Option Json.Value} :
    (Dictionary.keys (memberOf name value)).Sublist [name] := by
  cases value with
  | none => exact List.nil_sublist _
  | some v => exact List.Sublist.refl _

theorem get?_memberOf {key : String} {value : Option Json.Value} :
    Dictionary.get? key (memberOf name value) = if name = key then value else none := by
  cases value with
  | none => simp [memberOf]
  | some v => exact Dictionary.get?_cons

namespace Record

/-- The members are in order, some of them may be missing. -/
theorem isSorted_members : Dictionary.IsSorted (r.members time) := by
  have hkeys : (Dictionary.keys (r.members time)).Sublist
      ["fields", "level", "message", "service", "target", "timestamp"] := by
    rw [members, Dictionary.keys, List.map_append, List.map_cons, List.map_append]
    exact keys_memberOf_sublist.append ((keys_memberOf_sublist.append (List.Sublist.refl _)).cons_cons _)
  have hnames : ["fields", "level", "message", "service", "target", "timestamp"].Pairwise
      fun a b : String => compare a b = .lt := by decide +kernel
  exact List.pairwise_map.1 (hnames.sublist hkeys)

theorem isFreeForm_document (h : r.IsSound) : (r.document time).IsFreeForm 2 := by
  refine ⟨isSorted_members, fun member hmember => ?_⟩
  rcases List.mem_append.1 hmember with hfields | hrest
  · obtain ⟨value, hvalue, rfl⟩ := Option.map_eq_some_iff.1 (Option.mem_toList.1 hfields)
    split at hvalue
    · cases hvalue
    · obtain rfl := Option.some.inj hvalue
      exact ⟨isSorted_allFields, isFreeForm_of_mem_allFields h 0⟩
  · -- all other members are texts
    have htext : ∃ text, member.2 = .string text := by
      rcases List.mem_cons.1 hrest with rfl | hrest
      · exact ⟨_, rfl⟩
      · rcases List.mem_append.1 hrest with hmessage | hrest
        · obtain ⟨value, hvalue, rfl⟩ := Option.map_eq_some_iff.1 (Option.mem_toList.1 hmessage)
          obtain ⟨text, -, rfl⟩ := Option.map_eq_some_iff.1 hvalue
          exact ⟨text, rfl⟩
        · simp only [List.mem_cons, List.not_mem_nil, or_false] at hrest
          rcases hrest with rfl | rfl | rfl <;> exact ⟨_, rfl⟩
    obtain ⟨text, htext⟩ := htext
    rw [htext]
    trivial

/-- A document is read back from its text. -/
theorem decodeText_document (h : r.IsSound) :
    Json.decodeText Json.Decoder.value (r.document time).encode = .ok (r.document time) := by
  have hfree : (r.document time).IsFreeForm 2 := isFreeForm_document h
  have hread : Json.IsRead 0 (r.document time) := hfree.isRead (by decide)
  obtain ⟨hvalue, -, hwhole⟩ := Json.ofText_encode hfree.hasOnlyIntegers hread
  exact Json.decodeText_eq_ok_iff.2 ⟨hvalue, hwhole⟩

/-- The text of a document is one line. -/
theorem newline_not_mem_document (h : r.IsSound) : '\n' ∉ (r.document time).encode.toList := by
  rw [Json.Value.encode, String.toList_ofList]
  exact Json.newline_not_mem_text (isFreeForm_document h).hasOnlyIntegers

/-- The fields of a document: what the span tells, and else what the event tells. -/
theorem fieldOf_document (h : r.IsSound) :
    fieldOf name (r.document time) = (r.current?.bind (Span.told? name)).or (r.event.told? name) := by
  have hfields : (r.document time).get? "fields"
      = if r.allFields.isEmpty then none else some (.object r.allFields) := by
    have hothers : Dictionary.get? "fields"
        (("level", Json.Value.string r.event.level.text) ::
          (memberOf "message" (r.event.message.text?.map .string) ++ [
            ("service", .string (serviceOf r.event.target)),
            ("target", .string r.event.target),
            ("timestamp", .string time)])) = none := by
      rw [Dictionary.get?_cons, if_neg (by decide), Dictionary.get?_append, get?_memberOf, if_neg (by decide)]
      rfl
    show Dictionary.get? "fields" (r.members time) = _
    rw [members, Dictionary.get?_append, hothers, Option.or_none, get?_memberOf, if_pos rfl]
  rw [fieldOf, hfields, ← get?_allFields h]
  cases hall : r.allFields with
  | nil => rfl
  | cons field fields => rfl

/-- What the span tells is never lost. -/
theorem fieldOf_document_of_span {s : Span} {value : Json.Value} (h : r.IsSound)
    (hs : r.current? = some s) (hvalue : s.told? name = some value) :
    fieldOf name (r.document time) = some value := by
  rw [fieldOf_document h, hs, Option.bind_some, hvalue]
  rfl

/-- What the event tells is lost exactly if the span tells something else under the name. -/
theorem fieldOf_document_iff_of_event {value : Json.Value} (h : r.IsSound)
    (hvalue : r.event.told? name = some value) :
    fieldOf name (r.document time) = some value ↔
      ∀ s, r.current? = some s → ∀ other, s.told? name = some other → other = value := by
  rw [fieldOf_document h, hvalue]
  cases hspan : r.current? with
  | none => exact ⟨nofun, fun _ => rfl⟩
  | some s =>
    rw [Option.bind_some]
    cases htold : s.told? name with
    | none =>
      refine ⟨fun _ s' hs' other hother => ?_, fun _ => rfl⟩
      rw [← Option.some.inj hs', htold] at hother
      cases hother
    | some other =>
      constructor
      · intro heq s' hs' other' hother'
        rw [← Option.some.inj hs', htold] at hother'
        exact (Option.some.inj hother').symm.trans (Option.some.inj heq)
      · intro hall
        rw [hall s rfl other htold]
        rfl

end Record

/-! ## What the line of a record keeps -/

/-- A record is written as one line, which is read back as its document. Each field of the span is there with its
value, and so is the name of the span if it has no field of this name. Each field of the event is there with its
value exactly if the span tells nothing else under its name. -/
theorem jsonLine_keeps (time : String) (r : Record) (h : r.IsSound) :
    jsonLine time r = (r.document time).encode ++ "\n" ∧
    '\n' ∉ (r.document time).encode.toList ∧
    Json.decodeText Json.Decoder.value (r.document time).encode = .ok (r.document time) ∧
    (∀ s, r.current? = some s → ∀ name value, s.told? name = some value →
      fieldOf name (r.document time) = some value) ∧
    ∀ name value, r.event.told? name = some value →
      (fieldOf name (r.document time) = some value ↔
        ∀ s, r.current? = some s → ∀ other, s.told? name = some other → other = value) :=
  ⟨rfl, Record.newline_not_mem_document h, Record.decodeText_document h,
    fun _ hs _ _ hvalue => Record.fieldOf_document_of_span h hs hvalue,
    fun _ _ hvalue => Record.fieldOf_document_iff_of_event h hvalue⟩

/-- Of a library that is found in a verification the place is shown. -/
theorem jsonLine_keeps_offset :
    let verification := Span.start "verify" .info Part.verification.target
      [("chain_id", .integer 1), ("address", .shown "0x32Be343B94f860124DC4fEe278FDCBD38C102D88")]
    let library : Event := ⟨.debug, Part.bytecode.target, .shown "Resolved library placeholder",
      [("offset", .integer 42), ("address", .shown "7d8b5b4e2e4b5b2d0b9a0a4d1c3b2a1908070605")]⟩
    let r : Record := ⟨library, [verification]⟩
    r.IsSound ∧ fieldOf "offset" (r.document "2024-05-01T12:00:00.000Z") = some (.integer 42) := by
  intro verification library r
  have hsound : r.IsSound := by
    refine ⟨fun field hfield => ?_, fun s hs => ?_⟩
    · simp only [r, library, List.mem_cons, List.not_mem_nil, or_false] at hfield
      rcases hfield with rfl | rfl
      · exact .inl (by decide)
      · trivial
    · obtain rfl := Option.some.inj hs
      exact .start _ _ _ _
  have hspan : verification.told? "offset" = none := by
    rw [Span.told?, Span.get?_start]
    rfl
  refine ⟨hsound, ((jsonLine_keeps "2024-05-01T12:00:00.000Z" r hsound).2.2.2.2 "offset" _ rfl).2 ?_⟩
  intro s hs other hother
  rw [← Option.some.inj hs, hspan] at hother
  cases hother

/-- Of a library that is found in a verification the address is not shown: in its place is that of the contract. -/
theorem jsonLine_loses_address :
    let verification := Span.start "verify" .info Part.verification.target
      [("chain_id", .integer 1), ("address", .shown "0x32Be343B94f860124DC4fEe278FDCBD38C102D88")]
    let library : Event := ⟨.debug, Part.bytecode.target, .shown "Resolved library placeholder",
      [("address", .shown "7d8b5b4e2e4b5b2d0b9a0a4d1c3b2a1908070605")]⟩
    let r : Record := ⟨library, [verification]⟩
    library.told? "address" = some (.string "7d8b5b4e2e4b5b2d0b9a0a4d1c3b2a1908070605") ∧
    ∃ text document, jsonLine "2024-05-01T12:00:00.000Z" r = text ++ "\n" ∧
      Json.decodeText Json.Decoder.value text = .ok document ∧
      fieldOf "address" document = some (.string "0x32Be343B94f860124DC4fEe278FDCBD38C102D88") := by
  intro verification library r
  have hsound : r.IsSound := by
    refine ⟨fun field hfield => ?_, fun s hs => ?_⟩
    · obtain rfl := List.mem_singleton.1 hfield
      trivial
    · obtain rfl := Option.some.inj hs
      exact .start _ _ _ _
  have hspan : verification.told? "address" = some (.string "0x32Be343B94f860124DC4fEe278FDCBD38C102D88") := by
    rw [Span.told?, Span.get?_start]
    rfl
  exact ⟨rfl, _, _, rfl, Record.decodeText_document hsound,
    Record.fieldOf_document_of_span hsound rfl hspan⟩

end Provenance.Log
