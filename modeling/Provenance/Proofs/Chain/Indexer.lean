import Provenance.Chain.Indexer
import Provenance.Proofs.Json.Detached

/-!
# Replies of indexers

What a value that is decoded as the reply of an indexer has in it: its code, which is zero if it is left out
(`IndexerReply.part?_code`), and the input, which is empty if it or all data are left out (`IndexerReply.Tells`).
-/

namespace Provenance

open Json

namespace IndexerReply

variable {v : Value} {reply : IndexerReply}

theorem shows :
    record.Shows "code" .int64 (·.code) ∧
      record.Shows "data" (.option dataRecord.decoder) (·.creationCode) := by
  and_intros
  all_goals exact ⟨rfl, by simp [record], by simp [record]⟩

theorem shows_creationCode : dataRecord.Shows "creation_code" .string id where
  known := rfl
  fields := by simp [dataRecord]
  kept := by simp [dataRecord]

/-- What a value tells as the input: what its data have for it, or nothing where it or they are left out. -/
inductive Tells (v : Value) : String → Prop
  | noData (left : v.part? "data" 2 = none ∨ v.part? "data" 2 = some .null) : Tells v ""
  | noInput {data} (there : v.part? "data" 2 = some data) (left : data.part? "creation_code" 0 = none) :
    Tells v ""
  | input {data s} (there : v.part? "data" 2 = some data)
    (told : data.part? "creation_code" 0 = some (.string s)) : Tells v s

theorem optional : ∀ f ∈ record.fields, f.required = false := by
  simp [record]

/-- The code of a reply is the one that stands there, or zero if none does. -/
theorem part?_code (hv : IsRead 0 v) (h : decodeValue decoder v = .ok reply) :
    v.part? "code" 0 = some (.integer reply.code) ∨ (v.part? "code" 0 = none ∧ reply.code = 0) := by
  rw [decodeValue_eq_ok_iff] at h
  have hplace : (record.fields.map Field.name)[0]? = some "code" := rfl
  obtain ⟨w, hw, hd⟩ | hblank := shows.1.of_value optional (by decide) hplace hv h
  · rw [hw, eq_integer_of_ofValue hd]
    exact .inl rfl
  · exact .inr hblank

/-- The input of a reply is the one that the value tells. -/
theorem tells_creationCode (hv : IsRead 0 v) (h : decodeValue decoder v = .ok reply) :
    Tells v (reply.creationCode.getD "") := by
  rw [decodeValue_eq_ok_iff] at h
  have hplace : (record.fields.map Field.name)[2]? = some "data" := rfl
  obtain ⟨data, hdata, hd⟩ | ⟨hnone, hblank⟩ := shows.2.of_value optional (by decide) hplace hv h
  · obtain ⟨rfl, hreply⟩ | ⟨s, hreply, hs⟩ := option_ofValue hd
    · rw [hreply]
      exact .noData (.inr hdata)
    · rw [hreply]
      have hoptional : ∀ f ∈ dataRecord.fields, f.required = false := by
        simp [dataRecord]
      have hinput : (dataRecord.fields.map Field.name)[0]? = some "creation_code" := rfl
      obtain ⟨w, hw, hcode⟩ | ⟨hcode, hempty⟩ :=
        shows_creationCode.of_value hoptional (by decide) hinput (hv.part? hdata) hs
      · rw [eq_string_of_ofValue hcode] at hw
        exact .input hdata hw
      · have hs' : s = "" := hempty
        rw [hs']
        exact .noInput hdata hcode
  · have hreply : reply.creationCode = none := hblank
    rw [hreply]
    exact .noData (.inl hnone)

end IndexerReply

end Provenance
