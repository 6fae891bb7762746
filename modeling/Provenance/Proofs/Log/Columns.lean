import Provenance.Log.Line
import Provenance.Proofs.Log.Spans

/-!
# The columns of a line

Two columns of a line show a chain and an address. They are those of the span in which the event happened,
whatever the spans around it tell (`columns_of_current`). So they are those of the request only while no span
that tells neither is open inside that of the request, and a compilation opens one.
-/

namespace Provenance.Log

/-- Whether a span tells a chain or an address. -/
def Span.tellsContext (s : Span) : Bool :=
  Dictionary.contains "chain_id" s.fields || Dictionary.contains "address" s.fields

/-- The chain and the address that are told by the innermost span that tells one of them, dashes where there
is none. -/
def requestContext (spans : List Span) : String × String :=
  match spans.find? Span.tellsContext with
  | some s => contextOf s.fields
  | none => ("-", "-")

variable {s : Span} {spans : List Span} {r : Record}

theorem tellsContext_eq :
    s.tellsContext =
      ((Dictionary.get? "chain_id" s.fields).isSome || (Dictionary.get? "address" s.fields).isSome) := by
  rw [Span.tellsContext, Dictionary.contains_eq_isSome_get?, Dictionary.contains_eq_isSome_get?]

/-- A span that tells neither shows dashes. -/
theorem contextOf_of_not_tellsContext (h : s.tellsContext = false) : contextOf s.fields = ("-", "-") := by
  rw [tellsContext_eq, Bool.or_eq_false_iff, Option.isSome_eq_false_iff, Option.isSome_eq_false_iff,
    Option.isNone_iff_eq_none, Option.isNone_iff_eq_none] at h
  rw [contextOf, h.1, h.2]
  rfl

theorem requestContext_of_tellsContext (h : s.tellsContext = true) :
    requestContext (s :: spans) = contextOf s.fields := by
  rw [requestContext, List.find?_cons_of_pos h]

/-- A span that tells neither is passed over. -/
theorem requestContext_of_not_tellsContext (h : s.tellsContext = false) :
    requestContext (s :: spans) = requestContext spans := by
  rw [requestContext, List.find?_cons_of_neg (by simp [h])]
  rfl

theorem context_cons {event : Event} :
    (Record.mk event (s :: spans)).context = contextOf s.fields := rfl

/-- The columns show what the spans tell exactly if the innermost span tells it, or if there is nothing to
show. -/
theorem context_eq_requestContext_iff :
    r.context = requestContext r.spans ↔
      (∀ s, r.current? = some s → s.tellsContext = true) ∨ requestContext r.spans = ("-", "-") := by
  obtain ⟨event, spans⟩ := r
  cases spans with
  | nil => exact ⟨fun _ => .inr rfl, fun _ => rfl⟩
  | cons s spans =>
    have hcurrent : (Record.mk event (s :: spans)).current? = some s := rfl
    rw [context_cons, hcurrent]
    cases h : s.tellsContext with
    | true =>
      rw [requestContext_of_tellsContext h]
      exact ⟨fun _ => .inl fun _ hs => Option.some.inj hs ▸ h, fun _ => rfl⟩
    | false =>
      rw [contextOf_of_not_tellsContext h]
      constructor
      · exact fun hdashes => .inr hdashes.symm
      · rintro (hall | hdashes)
        · rw [hall s rfl] at h
          cases h
        · exact hdashes.symm

/-! ## Lines -/

/-- What stands between two columns. -/
def bar : String := " " ++ coloured 90 "|" ++ " "

/-- The columns for a chain and an address. -/
def contextColumns (context : String × String) : String :=
  coloured 92 (column 8 context.1) ++ bar ++ coloured 92 (column 12 context.2)

/-- What stands in a line before these columns. -/
def lineStart (time : String) (event : Event) : String :=
  coloured 96 time ++ bar ++ coloured event.level.colour (column 5 event.level.text) ++ bar

/-- What stands in a line after these columns. -/
def lineEnd (event : Event) : String :=
  bar ++ coloured 92 (column 10 (serviceOf event.target)) ++ bar ++ coloured 97 event.message.bare ++
    (if event.fields.isEmpty then "" else " (" ++ coloured 97 (fieldsText event.fields) ++ ")") ++ "\n"

theorem prettyLine_eq (time : String) (r : Record) :
    prettyLine time r = lineStart time r.event ++ contextColumns r.context ++ lineEnd r.event := by
  simp only [prettyLine, lineStart, contextColumns, lineEnd, bar, String.intercalate_cons_cons,
    String.intercalate_singleton, String.append_assoc]

/-! ## Spans of compilations -/

theorem tellsContext_record {name : String} {value : Value} (hchain : name ≠ "chain_id")
    (haddress : name ≠ "address") : (s.record name value).tellsContext = s.tellsContext := by
  rw [tellsContext_eq, tellsContext_eq, Span.get?_record, Span.get?_record, if_neg hchain.symm,
    if_neg haddress.symm]

/-- What is logged while compiling shows dashes, whatever the spans around tell. -/
theorem context_recompile {ν : Type} (o : Outside ν) (w : World ν) (compiler : Recompiler) (m : Metadata)
    (version : String) :
    ∃ more, (compiler.recompile m version o w).2.log = w.log ++ more ∧
      ∀ r ∈ more, r.context = ("-", "-") ∧ requestContext r.spans = requestContext w.spans := by
  obtain ⟨more, hlog, hmore⟩ := @Recompiler.logged_recompile ν o compiler m version
    (fun s => s.tellsContext = false) w rfl fun s value hs => by
      rw [tellsContext_record (by decide) (by decide), hs]
  refine ⟨more, hlog, fun r hr => ?_⟩
  obtain ⟨s, hs, hspans⟩ := hmore r hr
  obtain ⟨event, spans⟩ := r
  obtain rfl : spans = s :: w.spans := hspans
  exact ⟨contextOf_of_not_tellsContext hs, requestContext_of_not_tellsContext hs⟩

/-! ## What the columns show -/

/-- A line shows the chain and the address of the innermost span, and nothing else in it depends on the spans.
They are those of the innermost span that tells one of them exactly if it is itself this span, or if there is
nothing to show. What is logged while compiling never shows any. -/
theorem columns_of_current {ν : Type} (time : String) (r : Record) (o : Outside ν) (w : World ν)
    (compiler : Recompiler) (m : Metadata) (version : String) :
    prettyLine time r = lineStart time r.event ++ contextColumns r.context ++ lineEnd r.event ∧
    (r.context = requestContext r.spans ↔
      (∀ s, r.current? = some s → s.tellsContext = true) ∨ requestContext r.spans = ("-", "-")) ∧
    ∃ more, (compiler.recompile m version o w).2.log = w.log ++ more ∧
      ∀ r ∈ more, r.context = ("-", "-") ∧ requestContext r.spans = requestContext w.spans :=
  ⟨prettyLine_eq time r, context_eq_requestContext_iff, context_recompile o w compiler m version⟩

/-- While compiling for a verification the chain and the address of the verification are not shown. -/
theorem columns_of_compiling :
    let verification := Span.start "verify" .info Part.verification.target
      [("chain_id", .integer 1), ("address", .shown "0x32Be343B94f860124DC4fEe278FDCBD38C102D88")]
    let compiling := Span.start "recompile" .info Part.compiler.target [("version", .text "v0.8.26")]
    let r : Record := ⟨⟨.debug, Part.compiler.target, .shown "Spawning compiler", []⟩,
      [compiling, verification]⟩
    requestContext r.spans = ("1", "0x32Be..2D88") ∧ r.context = ("-", "-") ∧
      ∀ time, prettyLine time r
        ≠ lineStart time r.event ++ contextColumns (requestContext r.spans) ++ lineEnd r.event := by
  intro verification compiling r
  have hrequest : requestContext r.spans = ("1", "0x32Be..2D88") := by decide +kernel
  have hcontext : r.context = ("-", "-") := by decide +kernel
  refine ⟨hrequest, hcontext, fun time heq => ?_⟩
  rw [prettyLine_eq, hcontext, hrequest] at heq
  have hcolumns : contextColumns ("-", "-") = contextColumns ("1", "0x32Be..2D88") := by
    simpa only [String.append_left_inj, String.append_right_inj] using heq
  exact absurd hcolumns (by decide +kernel)

end Provenance.Log
