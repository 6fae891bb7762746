import Provenance.Proofs.Json.Bare
import Provenance.Proofs.Json.Insertion
import Provenance.Proofs.Metadata.Settings
import Provenance.Proofs.Metadata.Sources

/-!
# The compiler input of a metadata document

What a compiler is given is what was submitted: the language, the sources with their contents, and the settings.
-/

namespace Provenance

open Json Decoder

/-- What is accepted was read from the text, and each of its sources has content. -/
theorem Metadata.read_of_parse {text : String} {m : Metadata} (h : Metadata.parse text = .ok m) :
    record.decoder 0 (Node.ofText text) = .ok m ∧ m.sources ≠ [] ∧
      ∀ file ∈ m.sources, file.2.content ≠ "" := by
  rw [parse] at h
  split at h
  · cases h
  · next m' hread =>
    rw [check] at h
    split at h
    · cases h
    · next hnonempty =>
      split at h
      · cases h
      · next hcontents =>
        cases h
        refine ⟨(decodeText_eq_ok_iff.1 hread).1, by simpa using hnonempty, fun file hfile => ?_⟩
        simpa using List.find?_eq_none.1 hcontents file hfile

/-- A compiler input as a document says what the submitted document says. Where a key is given twice, its last member
counts. -/
theorem Metadata.standardJson_passes {text : String} {m : Metadata} {sources settings optimizer : Node}
    (accepted : Metadata.parse text = .ok m)
    (hsources : (Node.ofText text).under? "sources" = some sources)
    (hsettings : (Node.ofText text).under? "settings" = some settings)
    (hoptimizer : settings.under? "optimizer" = some optimizer)
    (optimizerObject : optimizer.members?.isSome) :
    ∃ files submitted sent,
      m.standardJson.toValue = .object [
        ("language", .string ((((Node.ofText text).under? "language").bind Node.text?).getD "Solidity")),
        ("sources", .object files), ("settings", .object sent)] ∧
      SourcesPassed sources files ∧
      Value.ofNode 1 settings = .ok (.object submitted) ∧ Settings.Passed submitted sent := by
  obtain ⟨hread, hnonempty, hcontents⟩ := read_of_parse accepted
  have hdocument := members?_isSome_of_under? hsources
  have hlanguage : m.language
      = (((Node.ofText text).under? "language").bind Node.text?).getD "Solidity" := by
    obtain ⟨n, hn, hstring⟩ | ⟨hnone, hblank⟩ := shows.1.of_read orderless.optional hdocument hread
    · simp [hn, text?_of_string hstring]
    · rw [hnone, hblank]
      rfl
  have hfiles : Decoder.dictionary .text SourceFile.record.decoder 1 sources = .ok m.sources := by
    obtain ⟨n, hn, hfiles⟩ | ⟨hnone, -⟩ := shows.2.1.of_read orderless.optional hdocument hread
    · cases hsources.symm.trans hn
      exact hfiles
    · cases hsources.symm.trans hnone
  have hgiven : Settings.record.decoder 1 settings = .ok m.settings := by
    obtain ⟨n, hn, hgiven⟩ | ⟨hnone, -⟩ := shows.2.2.of_read orderless.optional hdocument hread
    · cases hsettings.symm.trans hn
      exact hgiven
    · cases hsettings.symm.trans hnone
  obtain ⟨submitted, hsubmitted, hpassed⟩ := Settings.passed_of_read hgiven
    (members?_isSome_of_under? hoptimizer) hoptimizer optimizerObject
  refine ⟨_, submitted, _, ?_, sourcesPassed_of_read hfiles hnonempty hcontents, hsubmitted, hpassed⟩
  rw [← hlanguage]
  show Value.object [_, _, ("settings", m.standardJson.settings.toValue)] = _
  rw [toValue_settings]
  rfl

/-- A document with a setting that the settings do not know, and others of every kind. -/
def unknownText : String :=
  "\x7b\"sources\":\x7b\"a\":\x7b\"content\":\"A\"\x7d\x7d,\"settings\":\x7b\"optimizer\":\x7b\x7d,\"ir\":\"on\"," ++
    "\"evmVersion\":null,\"remappings\":[\"p=q\"],\"libraries\":\x7b\"a:L\":\"0x01\"\x7d\x7d\x7d"

/-- The settings of `unknownText`. -/
def unknownSettings : Node :=
  bareObject [bareMember "optimizer" (bareObject []), bareMember "ir" (.string [] [] (.ok "on")),
    bareMember "evmVersion" (.null [] []), bareMember "remappings" (.array [] [.string [] [] (.ok "p=q")] (.closed [])),
    bareMember "libraries" (bareObject [bareMember "a:L" (.string [] [] (.ok "0x01"))])]

/-- A setting of any name is passed, what is `null` is left out, and libraries are nested. -/
theorem Metadata.standardJson_passes_unknown :
    ∃ m files sent completed nested, Metadata.parse unknownText = .ok m ∧
      m.standardJson.toValue = .object [
        ("language", .string "Solidity"), ("sources", .object files), ("settings", .object sent)] ∧
      files ≠ [] ∧ (Dictionary.get? "ir" sent).bind Value.string? = some "on" ∧
      Dictionary.get? "evmVersion" sent = none ∧
      Dictionary.get? "remappings" sent = some (.array [.string "p=q"]) ∧
      Dictionary.get? "optimizer" sent = some (.object completed) ∧
      Dictionary.get? "runs" completed = some (.integer 200) ∧
      Dictionary.get? "libraries" sent = some (.object nested) ∧
      Dictionary.get? "a" nested = some (.object [("L", .string "0x01")]) := by
  have hasSources : ((Node.ofText unknownText).under? "sources").isSome := by decide +kernel
  have hasSettings : ((Node.ofText unknownText).under? "settings").any (fun n => n.isLike unknownSettings &&
      ((n.under? "optimizer").bind Node.members?).isSome) = true := by
    decide +kernel
  have language : (((Node.ofText unknownText).under? "language").bind Node.text?).getD "Solidity" = "Solidity" := by
    decide +kernel
  obtain ⟨m, accepted⟩ : ∃ m, Metadata.parse unknownText = .ok m := isOk_iff_exists.1 (by decide +kernel)
  obtain ⟨sources, hsources⟩ := Option.isSome_iff_exists.1 hasSources
  obtain ⟨settings, hsettings, hsays⟩ := (Option.any_eq_true _ _).1 hasSettings
  obtain ⟨hlike, hobject⟩ := Bool.and_eq_true_iff.1 hsays
  obtain ⟨members, hmembers⟩ := Option.isSome_iff_exists.1 hobject
  obtain ⟨optimizer, hoptimizer, hmembers⟩ := Option.bind_eq_some_iff.1 hmembers
  obtain ⟨files, submitted, sent, hsent, hsourcesPassed, hsubmitted, hpassed⟩ :=
    Metadata.standardJson_passes accepted hsources hsettings hoptimizer (by simp [hmembers])
  -- what was submitted, as a value
  have hvalue : Value.ofNode 1 unknownSettings = .ok (.object [("evmVersion", .null), ("ir", .string "on"),
      ("libraries", .object [("a:L", .string "0x01")]), ("optimizer", .object []),
      ("remappings", .array [.string "p=q"])]) := by
    rfl
  rw [← ofNode_bare_eq_ok_iff, Node.bare_eq_of_isLike settings unknownSettings hlike, ofNode_bare_eq_ok_iff,
    hvalue] at hsubmitted
  cases hsubmitted
  obtain ⟨given, completed, hgiven, hcompleted, hoptimized⟩ := hpassed.optimizer
  cases hgiven
  rcases hpassed.libraries with ⟨-, hnone | hempty⟩ | ⟨libraries, nested, hlibraries, -, hnested, -, hunder⟩
  · cases hnone
  · cases hempty
  cases hlibraries
  refine ⟨m, files, sent, completed, nested, accepted, language ▸ hsent, hsourcesPassed.nonempty, ?_,
    hpassed.evmVersion, hpassed.remappings, hcompleted, hoptimized.passed, hnested, ?_⟩
  · rw [hpassed.others (by decide)]
    rfl
  · rw [hunder "a"]
    rfl

end Provenance
