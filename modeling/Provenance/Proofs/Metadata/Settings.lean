import Provenance.Proofs.Metadata.Fields
import Provenance.Proofs.Metadata.Libraries

/-!
# Settings of a compiler input

A compiler gets the submitted settings, whatever their names, but for the contract of interest and the selection of
outputs. What is `null` or empty may be left out, the optimizer's settings are completed, and libraries are nested.
-/

namespace Provenance

open Json Decoder

variable {depth : Nat} {n : Node}

/-! ## The optimizer -/

/-- What the optimizer's settings are completed with. -/
def Optimizer.completion : List (String × Value) := [("enabled", .bool false), ("runs", .integer 200)]

/-- The optimizer's settings are passed to a compiler, completed where something is missing. -/
structure Optimizer.Passed (given sent : List (String × Value)) : Prop where
  unique : (Dictionary.keys sent).Nodup
  passed {key : String} : Dictionary.get? key sent
    = (Dictionary.get? key given).or (Dictionary.get? key Optimizer.completion)

theorem Optimizer.acceptsValues : Optimizer.record.decoder.AcceptsValues := by
  refine Record.acceptsValues orderless.optional rfl ?_
  simp only [record, List.forall_mem_cons]
  exact ⟨Inverts.bool.acceptsValues.map _, Inverts.uint64.acceptsValues.map _, by simp⟩

theorem Optimizer.field?_eq_none_iff {key : String} :
    record.field? key = none ↔ key ≠ "enabled" ∧ key ≠ "runs" := by
  rw [Record.field?_eq_none_iff]
  simp [record, eq_comm]

theorem Optimizer.passed_of_read {o : Optimizer} {given : List (String × Value)}
    (hread : record.decoder depth n = .ok o) (hgiven : Value.ofNode depth n = .ok (.object given)) :
    ∃ sent, o.toValue = .object sent ∧ Optimizer.Passed given sent := by
  have hn := members?_isSome_of_ofNode hgiven
  obtain ⟨hsorted, hunknown, hkept⟩ := keeps.of_read orderless.optional rfl hn hread
  -- nothing that was kept could be taken for one of the two
  have hfresh : ∀ key ∈ Dictionary.keys o.extra, key ≠ "enabled" ∧ key ≠ "runs" := fun key hkey =>
    field?_eq_none_iff.1 (hunknown key hkey)
  refine ⟨[("enabled", .bool o.enabled), ("runs", .integer o.runs)] ++ o.extra, rfl, ?_, ?_⟩
  · have hnodup := Dictionary.nodup_keys_of_isSorted hsorted
    simp only [Dictionary.keys, List.cons_append, List.nil_append, List.map_cons, List.nodup_cons,
      List.mem_cons, not_or]
    exact ⟨⟨by decide, fun h => (hfresh _ h).1 rfl⟩, fun h => (hfresh _ h).2 rfl, hnodup⟩
  · intro key
    rw [Dictionary.get?_append]
    by_cases henabled : key = "enabled"
    · subst henabled
      obtain h | ⟨h, hblank⟩ := shows.1.value_of_read orderless.optional Inverts.bool hgiven hread
      · simp [h, Dictionary.get?_cons]
      · simp [h, hblank, Dictionary.get?_cons, completion, record]
    · by_cases hruns : key = "runs"
      · subst hruns
        obtain h | ⟨h, hblank⟩ := shows.2.value_of_read orderless.optional Inverts.uint64 hgiven hread
        · simp [h, Dictionary.get?_cons]
        · simp [h, hblank, Dictionary.get?_cons, completion, record, defaultRuns]
      · have hother : ∀ v w : Value, Dictionary.get? key [("enabled", v), ("runs", w)] = none := fun v w => by
          simp [Dictionary.get?_cons, Ne.symm henabled, Ne.symm hruns]
        rw [hother, completion, hother, hkept key (field?_eq_none_iff.2 ⟨henabled, hruns⟩),
          get?_of_ofNode hgiven]
        simp

/-! ## The settings -/

/-- The names that a compiler's settings know. -/
def Settings.names : List String :=
  ["remappings", "optimizer", "evmVersion", "libraries", "metadata", "compilationTarget", "outputSelection"]

/-- A list without items. -/
def isEmptyList : Value → Bool
  | .array [] => true
  | _ => false

/-- Libraries are passed to a compiler in nested form, and left out where there are none. -/
def LibrariesPassed (submitted sent : Option Value) : Prop :=
  (sent = none ∧ (submitted = none ∨ submitted = some (.object []))) ∨
    ∃ libraries nested, submitted = some (.object libraries) ∧ libraries ≠ [] ∧
      sent = some (.object nested) ∧ (Dictionary.keys nested).Nodup ∧
      ∀ path, Dictionary.get? path nested = nestedUnder path libraries

/-- The settings are passed to a compiler: all but the contract of interest, and with a selection of outputs of their
own. -/
structure Settings.Passed (submitted sent : List (String × Value)) : Prop where
  unique : (Dictionary.keys sent).Nodup
  compilationTarget : Dictionary.get? "compilationTarget" sent = none
  outputSelection : Dictionary.get? "outputSelection" sent = some (.object [("*", .object [("*",
    .array [.string "abi", .string "evm.bytecode", .string "evm.deployedBytecode"])])])
  remappings : Dictionary.get? "remappings" sent
    = (Dictionary.get? "remappings" submitted).filter fun v => !isEmptyList v
  optimizer : ∃ given completed, Dictionary.get? "optimizer" submitted = some (.object given) ∧
    Dictionary.get? "optimizer" sent = some (.object completed) ∧ Optimizer.Passed given completed
  evmVersion : Dictionary.get? "evmVersion" sent
    = (Dictionary.get? "evmVersion" submitted).filter fun v => !v.isNull
  libraries : LibrariesPassed (Dictionary.get? "libraries" submitted) (Dictionary.get? "libraries" sent)
  metadata : Dictionary.get? "metadata" sent
    = (Dictionary.get? "metadata" submitted).filter fun v => !v.isNull
  others {key : String} : key ∉ Settings.names → Dictionary.get? key sent = Dictionary.get? key submitted

theorem Settings.field?_eq_none_iff {key : String} : record.field? key = none ↔ key ∉ names := by
  rw [Record.field?_eq_none_iff]
  simp [record, names, eq_comm]

theorem Settings.acceptsValues : Settings.record.decoder.AcceptsValues := by
  refine Record.acceptsValues orderless.optional rfl ?_
  simp only [record, List.forall_mem_cons]
  exact ⟨Inverts.string.list.acceptsValues.map _, Optimizer.acceptsValues.map _,
    Inverts.string.option.acceptsValues.map _, Inverts.value.dictionary.acceptsValues.map _,
    Inverts.value.option.acceptsValues.map _, Inverts.string.dictionary.acceptsValues.map _,
    Inverts.value.option.acceptsValues.map _, by simp⟩

/-- The settings of a compiler input, member by member. -/
def Settings.sent (s : Settings) : List (String × Value) :=
  (if s.remappings.isEmpty then [] else [("remappings", .array (s.remappings.map .string))]) ++
    [("optimizer", s.optimizer.toValue)] ++
    (s.evmVersion.toList.map fun v => ("evmVersion", .string v)) ++
    (if s.libraries.isEmpty then [] else [("libraries", .object (nestLibraries s.libraries))]) ++
    (s.metadata.toList.map fun v => ("metadata", v)) ++
    [("outputSelection", outputSelectionValue)] ++
    s.extra

theorem Metadata.toValue_settings (m : Metadata) :
    m.standardJson.settings.toValue = .object m.settings.sent := by
  obtain ⟨language, sources, ⟨remappings, optimizer, evmVersion, libraries, metadata, target, selection, extra⟩,
    version⟩ := m
  have hempty : (nestLibraries libraries).isEmpty = libraries.isEmpty := by
    rw [Bool.eq_iff_iff, List.isEmpty_iff, List.isEmpty_iff]
    exact nestLibraries_eq_nil_iff
  rw [Settings.sent, ← hempty, ← List.append_nil ((_ ++ _) ++ metadata.toList.map _)]
  cases evmVersion <;> cases metadata <;> rfl

section
variable {s : Settings}

private theorem get?_toList {α : Type} {key name : String} {o : Option α} {f : α → Value} :
    Dictionary.get? key (o.toList.map fun a => (name, f a)) = if name = key then o.map f else none := by
  cases o <;> simp [Dictionary.get?_cons]

private theorem get?_unless {key name : String} {v : Value} {c : Bool} :
    Dictionary.get? key (if c then [] else [(name, v)])
      = if name = key then (if c then none else some v) else none := by
  cases c <;> simp [Dictionary.get?_cons]

/-- What is sent under a key. -/
theorem Settings.get?_sent {key : String} :
    Dictionary.get? key s.sent =
      (if "remappings" = key then
        (if s.remappings.isEmpty then none else some (.array (s.remappings.map .string))) else none).or
      ((if "optimizer" = key then some s.optimizer.toValue else none).or
      ((if "evmVersion" = key then s.evmVersion.map .string else none).or
      ((if "libraries" = key then
        (if s.libraries.isEmpty then none else some (.object (nestLibraries s.libraries))) else none).or
      ((if "metadata" = key then s.metadata else none).or
      ((if "outputSelection" = key then some outputSelectionValue else none).or
      (Dictionary.get? key s.extra)))))) := by
  have hmetadata : Dictionary.get? key (s.metadata.toList.map fun v => ("metadata", v))
      = if "metadata" = key then s.metadata else none := by
    cases s.metadata <;> simp [Dictionary.get?_cons]
  simp only [sent, Dictionary.get?_append, Dictionary.get?_cons, Dictionary.get?_nil, get?_toList,
    get?_unless, hmetadata, Option.or_assoc]

theorem Settings.nodup_keys_sent (hextra : ∀ key ∈ Dictionary.keys s.extra, key ∉ names)
    (hnodup : (Dictionary.keys s.extra).Nodup) : (Dictionary.keys s.sent).Nodup := by
  have hunless : ∀ (name : String) (v : Value) (c : Bool),
      List.Sublist (Dictionary.keys (if c then [] else [(name, v)])) [name] := by
    intro name v c
    cases c with
    | true => exact List.nil_sublist _
    | false => exact List.Sublist.refl _
  have htoList : ∀ {α : Type} (name : String) (o : Option α) (f : α → Value),
      List.Sublist (Dictionary.keys (o.toList.map fun a => (name, f a))) [name] := by
    intro α name o f
    cases o with
    | none => exact List.nil_sublist _
    | some a => exact List.Sublist.refl _
  -- each of the known names is sent once or not at all, so they are some of this list
  obtain ⟨known, hsent, hknown⟩ : ∃ known, Dictionary.keys s.sent = known ++ Dictionary.keys s.extra ∧
      List.Sublist known
        ["remappings", "optimizer", "evmVersion", "libraries", "metadata", "outputSelection"] := by
    refine ⟨_, List.map_append, ?_⟩
    simp only [List.map_append]
    exact ((((hunless _ _ _).append (.refl _)).append (htoList _ _ _)).append (hunless _ _ _)).append
      (htoList _ _ _) |>.append (.refl _)
  rw [hsent]
  refine List.nodup_append.2 ⟨hknown.nodup (by decide), hnodup, fun key hkey key' hkey' heq => ?_⟩
  subst heq
  refine hextra key hkey' ?_
  have hmem := hknown.subset hkey
  simp only [names, List.mem_cons, List.not_mem_nil, or_false] at hmem ⊢
  rcases hmem with h | h | h | h | h | h <;> simp [h]

/-! ## From what was read to what is sent -/

/-- What is read as a value or `null` is no value `null`. -/
theorem isNull_of_option {v : Value} (h : Decoder.option .value depth n = .ok (some v)) : v.isNull = false := by
  have hvalue : Value.ofNode depth n = .ok v := Inverts.value.option h
  cases ofNode_eq_ok_iff.1 hvalue with
  | null => cases h
  | _ => rfl

section
variable {submitted : List (String × Value)}

theorem Settings.remappings_of_read (hv : Value.ofNode depth n = .ok (.object submitted))
    (hread : record.decoder depth n = .ok s) :
    (if s.remappings.isEmpty then none else some (.array (s.remappings.map .string)))
      = (Dictionary.get? "remappings" submitted).filter fun v => !isEmptyList v := by
  obtain h | ⟨h, hblank⟩ := shows.1.value_of_read orderless.optional Inverts.string.list hv hread
  · rw [h]
    cases s.remappings <;> rfl
  · rw [h, hblank]
    rfl

theorem Settings.evmVersion_of_read (hv : Value.ofNode depth n = .ok (.object submitted))
    (hread : record.decoder depth n = .ok s) :
    s.evmVersion.map .string = (Dictionary.get? "evmVersion" submitted).filter fun v => !v.isNull := by
  obtain h | ⟨h, hblank⟩ := shows.2.2.1.value_of_read orderless.optional Inverts.string.option hv hread
  · rw [h]
    cases s.evmVersion <;> rfl
  · rw [h, hblank]
    rfl

theorem Settings.libraries_of_read (hv : Value.ofNode depth n = .ok (.object submitted))
    (hread : record.decoder depth n = .ok s) :
    LibrariesPassed (Dictionary.get? "libraries" submitted)
      (if s.libraries.isEmpty then none else some (.object (nestLibraries s.libraries))) := by
  obtain ⟨n', hn', hlibraries⟩ | ⟨habsent, hblank⟩ :=
    shows.2.2.2.1.of_read orderless.optional (members?_isSome_of_ofNode hv) hread
  · have hsubmitted : Dictionary.get? "libraries" submitted = some (.object s.libraries) := by
      rw [get?_of_ofNode hv, hn']
      simp [Inverts.value.dictionary hlibraries]
    rw [hsubmitted]
    by_cases hempty : s.libraries = []
    · rw [hempty]
      exact .inl ⟨rfl, .inr rfl⟩
    · rw [if_neg (by simpa using hempty)]
      exact .inr ⟨s.libraries, nestLibraries s.libraries, rfl, hempty, rfl,
        Dictionary.nodup_keys_of_isSorted isSorted_nestLibraries,
        fun path => get?_nestLibraries (isSorted_of_dictionary hlibraries)⟩
  · rw [hblank, get?_of_ofNode hv, habsent]
    exact .inl ⟨rfl, .inl rfl⟩

theorem Settings.metadata_of_read (hv : Value.ofNode depth n = .ok (.object submitted))
    (hread : record.decoder depth n = .ok s) :
    s.metadata = (Dictionary.get? "metadata" submitted).filter fun v => !v.isNull := by
  rw [get?_of_ofNode hv]
  obtain ⟨n', hn', hmetadata⟩ | ⟨habsent, hblank⟩ :=
    shows.2.2.2.2.of_read orderless.optional (members?_isSome_of_ofNode hv) hread
  · have hvalue := Inverts.value.option hmetadata
    cases hkind : s.metadata with
    | none =>
      rw [hkind] at hvalue
      simp [hn', hvalue, Option.filter, Value.isNull]
    | some v =>
      rw [hkind] at hvalue hmetadata
      simp [hn', hvalue, Option.filter, isNull_of_option hmetadata]
  · rw [hblank, habsent]
    rfl

theorem Settings.optimizer_of_read {optimizer : Node} (hv : Value.ofNode depth n = .ok (.object submitted))
    (hread : record.decoder depth n = .ok s) (hoptimizer : n.under? "optimizer" = some optimizer)
    (hobject : optimizer.members?.isSome) :
    ∃ given completed, Dictionary.get? "optimizer" submitted = some (.object given) ∧
      s.optimizer.toValue = .object completed ∧ Optimizer.Passed given completed := by
  obtain ⟨o, ho, hread'⟩ | ⟨ho, -⟩ :=
    shows.2.1.of_read orderless.optional (members?_isSome_of_ofNode hv) hread
  · cases hoptimizer.symm.trans ho
    obtain ⟨w, hw⟩ := Optimizer.acceptsValues hread'
    obtain ⟨given, rfl⟩ := exists_object_of_ofNode hw hobject
    obtain ⟨completed, hcompleted, hpassed⟩ := Optimizer.passed_of_read hread' hw
    refine ⟨given, completed, ?_, hcompleted, hpassed⟩
    rw [get?_of_ofNode hv, hoptimizer]
    simp [hw]
  · cases hoptimizer.symm.trans ho

end

/-- Settings that were read are passed to a compiler as they were submitted. -/
theorem Settings.passed_of_read {optimizer : Node} (hread : record.decoder depth n = .ok s)
    (hn : n.members?.isSome) (hoptimizer : n.under? "optimizer" = some optimizer)
    (hobject : optimizer.members?.isSome) :
    ∃ submitted, Value.ofNode depth n = .ok (.object submitted) ∧ Settings.Passed submitted s.sent := by
  obtain ⟨v, hv⟩ := acceptsValues hread
  obtain ⟨submitted, rfl⟩ := exists_object_of_ofNode hv hn
  obtain ⟨hsorted, hunknown, hkept⟩ := keeps.of_read orderless.optional rfl hn hread
  have hextra : ∀ key ∈ Dictionary.keys s.extra, key ∉ names := fun key hkey =>
    field?_eq_none_iff.1 (hunknown key hkey)
  have hnone : ∀ key ∈ names, Dictionary.get? key s.extra = none := fun key hkey =>
    Dictionary.get?_eq_none fun hmem => hextra key hmem hkey
  obtain ⟨given, completed, hgiven, hcompleted, hpassed⟩ := optimizer_of_read hv hread hoptimizer hobject
  have hselection : Dictionary.get? "outputSelection" s.sent = some outputSelectionValue := by simp [get?_sent]
  refine ⟨submitted, hv, {
    unique := nodup_keys_sent hextra (Dictionary.nodup_keys_of_isSorted hsorted)
    compilationTarget := by simp [get?_sent, hnone "compilationTarget" (by decide)]
    outputSelection := hselection
    remappings := ?_
    optimizer := ⟨given, completed, hgiven, by simp [get?_sent, hcompleted], hpassed⟩
    evmVersion := ?_
    libraries := ?_
    metadata := ?_
    others := ?_ }⟩
  · rw [← remappings_of_read hv hread]
    simp [get?_sent, hnone "remappings" (by decide)]
  · rw [← evmVersion_of_read hv hread]
    simp [get?_sent, hnone "evmVersion" (by decide)]
  · have hsent : Dictionary.get? "libraries" s.sent
        = if s.libraries.isEmpty then none else some (.object (nestLibraries s.libraries)) := by
      simp [get?_sent, hnone "libraries" (by decide)]
    exact hsent ▸ libraries_of_read hv hread
  · rw [← metadata_of_read hv hread]
    simp [get?_sent, hnone "metadata" (by decide)]
  · -- a name that the settings do not know is kept as it is
    intro key hkey
    have hne : ∀ name ∈ names, name ≠ key := by
      rintro name hname rfl
      exact hkey hname
    rw [get?_of_ofNode hv, ← hkept key (field?_eq_none_iff.2 hkey), get?_sent,
      if_neg (hne "remappings" (by decide)), if_neg (hne "optimizer" (by decide)),
      if_neg (hne "evmVersion" (by decide)), if_neg (hne "libraries" (by decide)),
      if_neg (hne "metadata" (by decide)), if_neg (hne "outputSelection" (by decide))]
    simp

end

end Provenance
