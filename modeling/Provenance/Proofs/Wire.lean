import Provenance.Proofs.Json.Restoring
import Provenance.Request
import Provenance.Response

/-!
# Requests and responses on the wire

Requests and responses are read back from the texts that are written for them (`wire_round_trip`): every
member that is written is read by the field of its name, and what is left out is left out in the blank
record.
-/

namespace Provenance

open Json

/-! ## Requests -/

namespace Request

theorem shows :
    record.Shows "address" .string (·.address) ∧ record.Shows "metadata" .value (·.metadata) ∧
      record.Shows "chain" .int64 (·.chain) ∧ record.Shows "compilerVersion" .string (·.compilerVersion) := by
  and_intros
  all_goals exact ⟨rfl, by simp [record], by simp [record]⟩

/-- The members that are written for a request. -/
def entries (r : Request) : List (String × Value) :=
  [("address", .string r.address), ("metadata", r.metadata), ("chain", .integer r.chain),
    ("compilerVersion", .string r.compilerVersion)]

theorem accepts_entries {r : Request} (hchain : isSigned r.chain = true) :
    ∀ m ∈ r.entries, record.Accepts m := by
  simp only [entries, List.forall_mem_cons]
  exact ⟨Record.accepts_of_restores rfl rfl (fun _ _ => rfl) (.string _),
    Record.accepts_of_restores rfl rfl (fun _ _ => rfl) (.value _),
    Record.accepts_of_restores rfl rfl (fun _ _ => rfl) (.int64 hchain),
    Record.accepts_of_restores rfl rfl (fun _ _ => rfl) (.string _), by simp⟩

/-- A request is read back from its text. -/
theorem decodeText_toValue {r : Request} {levels : Nat} (hlevels : levels < maxNesting)
    (hmetadata : r.metadata.IsFreeForm levels) (hchain : isSigned r.chain = true) :
    decodeText decoder r.toValue.encode = .ok r := by
  have hfree : ∀ m ∈ r.entries, m.2.IsFreeForm levels := by
    simp [entries, hmetadata, Value.integer, Value.IsFreeForm, FitsWord, hchain]
  obtain ⟨members, changes, hheld, htaken, hdecoded⟩ := Record.decodeText_of_entries (by simp [entries])
    hfree hlevels (accepts_entries hchain) (by simp [entries, Dictionary.keys])
    (by simp [record])
  obtain ⟨address, document, chain, version⟩ := shows
  have haddress := (Record.Writes.of_member address (by simp [entries]) (.string r.address)).part_changed
    htaken hheld
  have hdocument := (Record.Writes.of_member document (by simp [entries]) (.value r.metadata)).part_changed
    htaken hheld
  have hnumber := (Record.Writes.of_member chain (by simp [entries]) (.int64 hchain)).part_changed
    htaken hheld
  have hversion := (Record.Writes.of_member version (by simp [entries])
    (.string r.compilerVersion)).part_changed htaken hheld
  have hvalue : r.toValue = .object r.entries := rfl
  rw [decoder, hvalue, hdecoded]
  generalize Record.changed record.blank changes = made at haddress hdocument hnumber hversion
  cases made
  cases r
  simp_all

end Request

/-! ## Responses -/

namespace Response

theorem shows :
    record.Shows "verified_status" (.variant Status.all) (·.status) ∧
      record.Shows "message" .string (·.message) ∧ record.Shows "abi" (.option (.list .value)) (·.abi) ∧
      record.Shows "creation_bytecode_length" (.option .length) (·.creationLength) ∧
      record.Shows "revive_version" (.option .string) (·.reviveVersion) ∧
      record.Shows "constructor_args" (.option .string) (·.constructorArguments) := by
  and_intros
  all_goals exact ⟨rfl, by simp [record, Field.necessary], by simp [record]⟩

/-- The members that are written for a response. -/
def entries (r : Response) : List (String × Value) :=
  ("verified_status", .string r.status.text) :: ("message", .string r.message) ::
    [(r.abi.map fun items => ("abi", .array items)).toList,
      (r.creationLength.map fun n => ("creation_bytecode_length", .integer n)).toList,
      (r.reviveVersion.map fun version => ("revive_version", .string version)).toList,
      (r.constructorArguments.map fun arguments => ("constructor_args", .string arguments)).toList].flatten

theorem toValue_eq (r : Response) : r.toValue = .object r.entries := by
  obtain ⟨status, message, abi, length, version, arguments⟩ := r
  cases abi <;> cases length <;> cases version <;> cases arguments <;> rfl

/-- A status is read from its name. -/
theorem restores_status (status : Status) :
    (Decoder.variant Status.all).Restores status (.string status.text) := by
  refine .variant ?_
  cases status <;> rfl

theorem restores_abi (items : List Value) :
    (Decoder.option (.list .value)).Restores (some items) (.array items) := by
  refine .option (.list ?_) rfl
  rw [List.forall₂_same]
  exact fun v _ => .value v

theorem restores_length {n : Nat} (h : isUnsigned n = true) :
    (Decoder.option .length).Restores (some n) (.integer n) := .option (.length h) rfl

theorem restores_text (s : String) : (Decoder.option .string).Restores (some s) (.string s) :=
  .option (.string s) rfl

/-- A member is written for each part that has a value. -/
theorem mem_entries_iff {r : Response} {k : String} {v : Value} : (k, v) ∈ r.entries ↔
    (k = "verified_status" ∧ v = .string r.status.text) ∨ (k = "message" ∧ v = .string r.message) ∨
      (∃ items, r.abi = some items ∧ k = "abi" ∧ v = .array items) ∨
      (∃ n : Nat, r.creationLength = some n ∧ k = "creation_bytecode_length" ∧ v = .integer n) ∨
      (∃ version, r.reviveVersion = some version ∧ k = "revive_version" ∧ v = .string version) ∨
      (∃ arguments, r.constructorArguments = some arguments ∧ k = "constructor_args" ∧
        v = .string arguments) := by
  simp [entries, eq_comm]

theorem nodup_keys_entries (r : Response) : (Dictionary.keys r.entries).Nodup := by
  obtain ⟨status, message, abi, length, version, arguments⟩ := r
  cases abi <;> cases length <;> cases version <;> cases arguments <;> simp [entries, Dictionary.keys]

section
variable {r : Response} (hlength : ∀ n ∈ r.creationLength, isUnsigned n = true)
include hlength

theorem accepts_entries : ∀ m ∈ r.entries, record.Accepts m := by
  rintro ⟨k, v⟩ hm
  obtain ⟨rfl, rfl⟩ | ⟨rfl, rfl⟩ | ⟨items, -, rfl, rfl⟩ | ⟨n, hn, rfl, rfl⟩ | ⟨version, -, rfl, rfl⟩ |
    ⟨arguments, -, rfl, rfl⟩ := mem_entries_iff.1 hm
  · exact Record.accepts_of_restores rfl rfl (fun _ _ => rfl) (restores_status _)
  · exact Record.accepts_of_restores rfl rfl (fun _ _ => rfl) (.string _)
  · exact Record.accepts_of_restores rfl rfl (fun _ _ => rfl) (restores_abi items)
  · exact Record.accepts_of_restores rfl rfl (fun _ _ => rfl) (restores_length (hlength n hn))
  · exact Record.accepts_of_restores rfl rfl (fun _ _ => rfl) (restores_text version)
  · exact Record.accepts_of_restores rfl rfl (fun _ _ => rfl) (restores_text arguments)

theorem isFreeForm_entries {levels : Nat} (habi : ∀ items ∈ r.abi, ∀ v ∈ items, v.IsFreeForm levels) :
    ∀ m ∈ r.entries, m.2.IsFreeForm (levels + 1) := by
  rintro ⟨k, v⟩ hm
  obtain ⟨rfl, rfl⟩ | ⟨rfl, rfl⟩ | ⟨items, hitems, rfl, rfl⟩ | ⟨n, hn, rfl, rfl⟩ | ⟨version, -, rfl, rfl⟩ |
    ⟨arguments, -, rfl, rfl⟩ := mem_entries_iff.1 hm
  · trivial
  · trivial
  · exact habi items hitems
  · exact .inr (hlength n hn)
  · trivial
  · trivial

/-- A response is read back from its text. -/
theorem decodeText_toValue {levels : Nat} (hlevels : levels + 1 < maxNesting)
    (habi : ∀ items ∈ r.abi, ∀ v ∈ items, v.IsFreeForm levels) :
    decodeText decoder r.toValue.encode = .ok r := by
  obtain ⟨members, changes, hheld, htaken, hdecoded⟩ := Record.decodeText_of_entries (by simp [entries])
    (isFreeForm_entries hlength habi) hlevels (accepts_entries hlength) (nodup_keys_entries r)
    (by simp [record, Field.necessary, entries, Dictionary.keys])
  obtain ⟨status, message, abi, length, version, arguments⟩ := shows
  have hstatus := (Record.Writes.of_member status (by simp [mem_entries_iff])
    (restores_status r.status)).part_changed htaken hheld
  have hmessage := (Record.Writes.of_member message (by simp [mem_entries_iff])
    (.string r.message)).part_changed htaken hheld
  have hitems := (Record.Writes.of_option (a := r.abi) abi (by simp [mem_entries_iff])
    (fun items _ => restores_abi items) rfl).part_changed htaken hheld
  have hcount := (Record.Writes.of_option (a := r.creationLength) length (by simp [mem_entries_iff])
    (fun n hn => restores_length (hlength n hn)) rfl).part_changed htaken hheld
  have hversion := (Record.Writes.of_option (a := r.reviveVersion) version
    (by simp [mem_entries_iff]) (fun s _ => restores_text s) rfl).part_changed htaken hheld
  have harguments := (Record.Writes.of_option (a := r.constructorArguments) arguments
    (by simp [mem_entries_iff]) (fun s _ => restores_text s) rfl).part_changed htaken hheld
  rw [decoder, toValue_eq, hdecoded]
  generalize Record.changed record.blank changes = made
    at hstatus hmessage hitems hcount hversion harguments
  cases made
  cases r
  simp_all

end

end Response

/-! ## Both -/

theorem isUnsigned_of_lt {n : Nat} (h : n < 2 ^ 64) : isUnsigned n = true := by
  have hmax : maxUnsigned = 18446744073709551615 := rfl
  simp only [isUnsigned, hmax, Bool.and_eq_true, decide_eq_true_eq]
  omega

/-- Every response and every request is read back from the text that is written for it, whatever of a response
is left out, if the free-form values that it holds are not nested deeper than 120 levels. -/
theorem wire_round_trip :
    (∀ r : Response, (∀ items, r.abi = some items → ∀ v ∈ items, v.IsFreeForm 120) →
      (∀ n, r.creationLength = some n → n < 2 ^ 64) → decodeText Response.decoder r.toValue.encode = .ok r) ∧
    ∀ r : Request, r.metadata.IsFreeForm 120 → -2 ^ 63 ≤ r.chain → r.chain < 2 ^ 63 →
      decodeText Request.decoder r.toValue.encode = .ok r := by
  have h63 : Nat.pow 2 63 = 9223372036854775808 := rfl
  constructor
  · intro r habi hlength
    exact Response.decodeText_toValue (fun n hn => isUnsigned_of_lt (hlength n hn)) (by decide) habi
  · intro r hmetadata hlow hhigh
    refine Request.decodeText_toValue (by decide) hmetadata ?_
    simp only [isSigned, h63, Bool.and_eq_true, decide_eq_true_eq]
    omega

/-- A value that uses each kind of free form. -/
private def sample : Value :=
  .object [("a", .array [.null, .bool true, .object []]), ("b", .string "\x22\n\u00e9"),
    ("c", .integer (-9223372036854775808)), ("d", .integer 18446744073709551615)]

private theorem isFreeForm_sample : sample.IsFreeForm 120 := by
  simp only [sample, Value.integer, Value.IsFreeForm, List.forall_mem_cons, Dictionary.IsSorted]
  refine ⟨by decide, ⟨trivial, trivial, ?_⟩, trivial, .inl rfl, .inr rfl, by simp⟩
  simp

/-- A response with an empty text and without arguments of a constructor. -/
private def fullResponse : Response := ⟨.partially, "ok", some [sample], some (2 ^ 64 - 1), some "", none⟩

/-- A response with an empty list and without most of the others. -/
private def bareResponse : Response := ⟨.mismatch, "", some [], none, none, some ""⟩

private def sampleRequest : Request := ⟨"0x", sample, -2 ^ 63, "0.8.26"⟩

/-- What is left out is told from what is empty. -/
theorem wire_round_trip_of_sample :
    sample.IsFreeForm 120 ∧ decodeText Response.decoder fullResponse.toValue.encode = .ok fullResponse ∧
      decodeText Response.decoder bareResponse.toValue.encode = .ok bareResponse ∧
      decodeText Request.decoder sampleRequest.toValue.encode = .ok sampleRequest := by
  obtain ⟨hresponse, hrequest⟩ := wire_round_trip
  refine ⟨isFreeForm_sample, hresponse _ ?_ ?_, hresponse _ ?_ ?_, hrequest _ isFreeForm_sample ?_ ?_⟩
  · rintro _ ⟨⟩ v hv
    obtain rfl := List.mem_singleton.1 hv
    exact isFreeForm_sample
  · rintro _ ⟨⟩
    decide
  · rintro _ ⟨⟩ v hv
    cases hv
  · rintro _ ⟨⟩
  · decide
  · decide

end Provenance
