import Provenance.Proofs.Metadata.Fields
import Provenance.StandardJson

/-!
# Sources of a compiler input

A compiler gets under each submitted path the submitted content, with its hash if there is one, and nothing else.
-/

namespace Provenance

open Json Decoder

/-- A field of a source file, which is submitted as an object or as a list. -/
def SourceFile.field? (name : String) (index : Nat) : Node → Option Node
  | .array _ items _ => items[index]?
  | n => n.under? name

/-- A source file is passed to a compiler: its content, which is not empty, and its hash if that is a string. -/
def SourceFile.IsPassed (n : Node) (v : Value) : Prop :=
  ∃ content, (field? "content" 1 n).bind Node.text? = some content ∧ content ≠ "" ∧
    v = .object ((((field? "keccak256" 0 n).bind Node.text?).toList.map fun hash => ("keccak256", .string hash))
      ++ [("content", .string content)])

variable {depth : Nat} {n : Node} {s : SourceFile}

theorem SourceFile.toValue_eq :
    s.toValue = .object ((s.keccak256.toList.map fun hash => ("keccak256", .string hash))
      ++ [("content", .string s.content)]) := by
  obtain ⟨hash, content⟩ := s
  cases hash <;> rfl

/-- A source file with content is no list but a pair of its hash and its content. -/
theorem SourceFile.pair_of_elements {ending : ListEnd} {nodes : List Node}
    (h : record.elements depth ending 0 record.blank record.fields nodes = .ok s) (hcontent : s.content ≠ "") :
    ∃ hash content, nodes = [hash, content] ∧ Decoder.option .string depth hash = .ok s.keccak256 ∧
      Decoder.string depth content = .ok s.content := by
  -- a list that ends before its content leaves the content empty
  cases nodes with
  | nil =>
    cases ending <;> cases h
    all_goals exact absurd rfl hcontent
  | cons hash nodes =>
    obtain ⟨setHash, hset, h⟩ := bind_eq_ok_iff.1 h
    obtain ⟨k, hk, rfl⟩ := map_eq_ok_iff.1 (inside_eq_ok_iff.1 hset)
    cases nodes with
    | nil =>
      cases ending <;> cases h
      all_goals exact absurd rfl hcontent
    | cons content nodes =>
      obtain ⟨setContent, hset', h⟩ := bind_eq_ok_iff.1 h
      obtain ⟨c, hc, rfl⟩ := map_eq_ok_iff.1 (inside_eq_ok_iff.1 hset')
      cases nodes with
      | nil =>
        cases ending <;> cases h
        all_goals exact ⟨hash, content, rfl, hk, hc⟩
      | cons => cases h

/-- What was read of a source file are the fields that were submitted. -/
theorem SourceFile.fields_of_read (h : record.decoder depth n = .ok s) (hcontent : s.content ≠ "") :
    (field? "content" 1 n).bind Node.text? = some s.content ∧
      (field? "keccak256" 0 n).bind Node.text? = s.keccak256 := by
  cases n with
  | object start members ending =>
    have habsent : s.content ≠ record.blank.content := hcontent
    obtain ⟨c, hc, hread⟩ | ⟨-, hblank⟩ := shows.2.of_read orderless.optional rfl h
    · refine ⟨Option.bind_eq_some_iff.2 ⟨c, hc, text?_of_string hread⟩, ?_⟩
      obtain ⟨k, hk, hread⟩ | ⟨hnone, hblank⟩ := shows.1.of_read orderless.optional rfl h
      · exact (congrArg (·.bind Node.text?) hk).trans (text?_of_option hread)
      · exact (congrArg (·.bind Node.text?) hnone).trans hblank.symm
    · exact absurd hblank habsent
  | array start nodes ending =>
    rw [Record.decoder, if_neg (by simp [record]), nested_eq_ok_iff] at h
    obtain ⟨hash, content, rfl, hhash, hread⟩ := pair_of_elements h.2 hcontent
    exact ⟨text?_of_string hread, text?_of_option hhash⟩
  | _ => cases h

theorem SourceFile.isPassed_of_read (h : record.decoder depth n = .ok s) (hcontent : s.content ≠ "") :
    SourceFile.IsPassed n s.toValue := by
  obtain ⟨hread, hhash⟩ := fields_of_read h hcontent
  exact ⟨s.content, hread, hcontent, by rw [toValue_eq, hhash]⟩

/-- The sources are passed to a compiler: those that were submitted, and only them. -/
structure SourcesPassed (sources : Node) (files : List (String × Value)) : Prop where
  nonempty : files ≠ []
  unique : (Dictionary.keys files).Nodup
  paths {path : String} : (Dictionary.get? path files).isSome ↔ (sources.under? path).isSome
  passed {path : String} {n : Node} {v : Value} : sources.under? path = some n →
    Dictionary.get? path files = some v → SourceFile.IsPassed n v

theorem sourcesPassed_of_read {sources : Node} {files : List (String × SourceFile)}
    (hread : Decoder.dictionary .text SourceFile.record.decoder depth sources = .ok files)
    (hnonempty : files ≠ []) (hcontents : ∀ file ∈ files, file.2.content ≠ "") :
    SourcesPassed sources (files.map fun file => (file.1, file.2.toValue)) := by
  have hget {path : String} : Dictionary.get? path (files.map fun file => (file.1, file.2.toValue))
      = (Dictionary.get? path files).map SourceFile.toValue := Dictionary.get?_map _ _
  constructor
  · simpa using hnonempty
  · have hkeys : Dictionary.keys (files.map fun file => (file.1, file.2.toValue)) = Dictionary.keys files := by
      simp [Dictionary.keys]
    exact hkeys ▸ Dictionary.nodup_keys_of_isSorted (isSorted_of_dictionary hread)
  · intro path
    rw [hget]
    rcases @get?_dictionary _ _ _ path _ _ hread with ⟨hnode, hfile⟩ | ⟨n, s, hnode, -, hfile⟩
    · simp [hnode, hfile]
    · simp [hnode, hfile]
  · intro path n v hn hv
    rw [hget] at hv
    rcases @get?_dictionary _ _ _ path _ _ hread with ⟨hnode, -⟩ | ⟨n', s, hnode, hs, hfile⟩
    · cases hn.symm.trans hnode
    · cases hn.symm.trans hnode
      rw [hfile] at hv
      cases hv
      exact SourceFile.isPassed_of_read hs (hcontents (path, s) (Dictionary.mem_of_get? hfile))

end Provenance
