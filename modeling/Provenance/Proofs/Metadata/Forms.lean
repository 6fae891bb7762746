import Provenance.Proofs.Json.RoundTrip
import Provenance.Proofs.Metadata.Fields
import Provenance.Request

/-!
# The two forms of submitted metadata

A metadata document is submitted as a text or as the object that the text writes. Both are read as the same metadata,
or both are refused.
-/

namespace Provenance

open Json

/-- Text and object are read alike: in what order the members of the text stand and how its strings are written does
not matter. -/
theorem Metadata.parse_text_or_object {text : String} {members : List (String × Value)}
    {withText withObject : Request}
    (decoded : decodeText Decoder.value text = .ok (.object members))
    (unique : (Node.ofText text).HasUniqueKeys) (integers : (Value.object members).HasOnlyIntegers)
    (asText : withText.metadata = .string text) (asObject : withObject.metadata = .object members) :
    ∃ document document', withText.metadataText? = some document ∧
      withObject.metadataText? = some document' ∧
      ((∃ m, Metadata.parse document = .ok m ∧ Metadata.parse document' = .ok m) ∨
        ∃ flaw flaw', Metadata.parse document = .error flaw ∧ Metadata.parse document' = .error flaw') := by
  refine ⟨text, (Value.object members).encode, by rw [Request.metadataText?, asText],
    by rw [Request.metadataText?, asObject], ?_⟩
  -- the two texts are read alike, so where one of them is refused the other is
  have hsame := decodeText_encode Metadata.orderless.readsValues decoded unique integers
  cases htext : decodeText Metadata.record.decoder text with
  | error message =>
    cases hobject : decodeText Metadata.record.decoder (Value.object members).encode with
    | error message' => exact .inr ⟨_, _, by rw [parse, htext], by rw [parse, hobject]⟩
    | ok m => cases htext.symm.trans ((hsame m).2 hobject)
  | ok m =>
    rw [parse, parse, htext, (hsame m).1 htext]
    cases hcheck : m.check with
    | error flaw => exact .inr ⟨flaw, flaw, hcheck, hcheck⟩
    | ok m => exact .inl ⟨m, hcheck, hcheck⟩

/-- A document with blanks and an escape, the members not in order. -/
def looseText : String :=
  "\x7b \"sources\" : \x7b\"a\":\x7b\"content\":\"\\u0041\"\x7d\x7d, \"language\":\"Yul\"\x7d"

/-- The members of the object that a text writes. -/
private def membersOf? (text : String) : Option (List (String × Value)) :=
  match decodeText Decoder.value text with
  | .ok (.object members) => some members
  | _ => none

private theorem decodeText_of_membersOf? {text : String} {members : List (String × Value)}
    (h : membersOf? text = some members) : decodeText Decoder.value text = .ok (.object members) := by
  unfold membersOf? at h
  split at h
  · next heq =>
    cases h
    exact heq
  · cases h

/-- Blanks, an escape and another order of members make no difference. -/
theorem Metadata.parse_text_or_object_of_loose :
    ∃ m, Metadata.parse looseText = .ok m ∧ Metadata.parse
      "\x7b\"language\":\"Yul\",\"sources\":\x7b\"a\":\x7b\"content\":\"A\"\x7d\x7d\x7d" = .ok m := by
  have hread : (membersOf? looseText).any (fun members =>
      decide ((Value.object members).HasOnlyIntegers ∧ (Value.object members).encode
        = "\x7b\"language\":\"Yul\",\"sources\":\x7b\"a\":\x7b\"content\":\"A\"\x7d\x7d\x7d")) = true := by
    decide +kernel
  obtain ⟨members, hmembers, hknown⟩ := (Option.any_eq_true _ _).1 hread
  obtain ⟨integers, written⟩ := of_decide_eq_true hknown
  have decoded := decodeText_of_membersOf? hmembers
  obtain ⟨_, _, ⟨⟩, ⟨⟩, ⟨m, hm, hm'⟩ | ⟨flaw, _, hflaw, _⟩⟩ :=
    @Metadata.parse_text_or_object looseText members { Request.blank with metadata := .string looseText }
      { Request.blank with metadata := .object members } decoded (by decide +kernel) integers rfl rfl
  · exact ⟨m, hm, written ▸ hm'⟩
  · have accepted : (Metadata.parse looseText).isOk = true := by decide +kernel
    rw [hflaw] at accepted
    cases accepted

end Provenance
