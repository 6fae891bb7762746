import Provenance.Metadata
import Provenance.Proofs.Json.Parts

/-!
# The fields of a metadata document

A metadata document is read from its value: neither the order of its members nor how they are written matters
(`orderless`). Each of its parts is set by the field of one name (`shows`), and settings of other names are kept
(`keeps`).
-/

namespace Provenance

open Json Decoder

/-! ## The order of fields -/

theorem SourceFile.orderless : SourceFile.record.Orderless where
  optional := by simp [SourceFile.record]
  reads := by
    simp only [SourceFile.record, List.forall_mem_cons]
    exact ⟨ReadsValues.string.option.map _, ReadsValues.string.map _, by simp⟩
  commutes := by simp [SourceFile.record]
  sparesKept := by simp [SourceFile.record]
  keep_comm := by simp [SourceFile.record]

theorem Optimizer.orderless : Optimizer.record.Orderless where
  optional := by simp [Optimizer.record]
  reads := by
    simp only [Optimizer.record, List.forall_mem_cons]
    exact ⟨ReadsValues.bool.map _, ReadsValues.uint64.map _, by simp⟩
  commutes := by simp [Optimizer.record]
  sparesKept := by simp [Optimizer.record]
  keep_comm := by
    rintro keep ⟨⟩ k k' hne v v' x
    simp only [Dictionary.insert_comm hne]

theorem Settings.orderless : Settings.record.Orderless where
  optional := by simp [Settings.record]
  reads := by
    simp only [Settings.record, List.forall_mem_cons]
    exact ⟨ReadsValues.string.list.map _, Optimizer.orderless.readsValues.map _,
      ReadsValues.string.option.map _, ReadsValues.value.dictionary.map _,
      ReadsValues.value.option.map _, ReadsValues.string.dictionary.map _,
      ReadsValues.value.option.map _, by simp⟩
  commutes := by simp [Settings.record]
  sparesKept := by simp [Settings.record]
  keep_comm := by
    rintro keep ⟨⟩ k k' hne v v' x
    simp only [Dictionary.insert_comm hne]

theorem Metadata.orderless : Metadata.record.Orderless where
  optional := by simp [Metadata.record]
  reads := by
    simp only [Metadata.record, List.forall_mem_cons]
    exact ⟨ReadsValues.string.map _, SourceFile.orderless.readsValues.dictionary.map _,
      Settings.orderless.readsValues.map _, ReadsValues.string.option.map _, by simp⟩
  commutes := by simp [Metadata.record]
  sparesKept := by simp [Metadata.record]
  keep_comm := by simp [Metadata.record]

/-! ## Parts by field -/

theorem SourceFile.shows :
    record.Shows "keccak256" (.option .string) (·.keccak256) ∧ record.Shows "content" .string (·.content) := by
  and_intros
  all_goals exact ⟨rfl, by simp [record], by simp [record]⟩

theorem Optimizer.shows :
    record.Shows "enabled" .bool (·.enabled) ∧ record.Shows "runs" .uint64 (·.runs) := by
  and_intros
  all_goals exact ⟨rfl, by simp [record], by simp [record]⟩

theorem Settings.shows :
    record.Shows "remappings" (.list .string) (·.remappings) ∧
      record.Shows "optimizer" Optimizer.record.decoder (·.optimizer) ∧
      record.Shows "evmVersion" (.option .string) (·.evmVersion) ∧
      record.Shows "libraries" (.dictionary .text .value) (·.libraries) ∧
      record.Shows "metadata" (.option .value) (·.metadata) := by
  and_intros
  all_goals exact ⟨rfl, by simp [record], by simp [record]⟩

theorem Metadata.shows :
    record.Shows "language" .string (·.language) ∧
      record.Shows "sources" (.dictionary .text SourceFile.record.decoder) (·.sources) ∧
      record.Shows "settings" Settings.record.decoder (·.settings) := by
  and_intros
  all_goals exact ⟨rfl, by simp [record], by simp [record]⟩

theorem Optimizer.keeps : record.Keeps (·.extra) where
  keeps := ⟨_, rfl, fun _ _ _ => rfl⟩
  fields := by simp [record]

theorem Settings.keeps : record.Keeps (·.extra) where
  keeps := ⟨_, rfl, fun _ _ _ => rfl⟩
  fields := by simp [record]

end Provenance
