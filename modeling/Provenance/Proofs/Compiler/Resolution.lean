import Provenance.Compiler.Resolution
import Provenance.Proofs.Json.Records
import Provenance.Proofs.Text.Order

/-!
# The choice of the contract

The contracts of an output stand in order of source path and name (`CompilerOutput.IsSorted`). So the first
with deployed code that a scan of the sources and of their contracts meets is the least of all of them, and
the choice comes to one of four things (`CompilerOutput.Chooses`).
-/

namespace Provenance

/-- Targets are in the order of the bytes of the source paths, and within a source of those of the names. -/
def Target.Before (t other : Target) : Prop :=
  Text.encode t.source < Text.encode other.source ∨
    t.source = other.source ∧ Text.encode t.contract < Text.encode other.contract

theorem Target.Before.asymm {t other : Target} (h : t.Before other) : ¬ other.Before t := by
  intro h'
  rcases h with hsource | ⟨hsource, hname⟩
  · rcases h' with hsource' | ⟨hsource', -⟩
    · exact List.lt_asymm hsource hsource'
    · rw [hsource'] at hsource
      exact List.lt_irrefl _ hsource
  · rcases h' with hsource' | ⟨-, hname'⟩
    · rw [hsource] at hsource'
      exact List.lt_irrefl _ hsource'
    · exact List.lt_asymm hname hname'

theorem Target.isBlank_eq_false_iff {t : Target} :
    t.isBlank = false ↔ t.source ≠ "" ∧ t.contract ≠ "" := by
  simp [isBlank]

namespace CompilerOutput

open Json

variable {o : CompilerOutput} {declared : Option Target} {tag : Option String} {t : Target}

/-- The sources stand in order, and so do the contracts of each, none of them twice. -/
structure IsSorted (o : CompilerOutput) : Prop where
  sources : Dictionary.IsSorted o.contracts
  names : ∀ entry ∈ o.contracts, Dictionary.IsSorted entry.2

instance : Decidable o.IsSorted :=
  decidable_of_iff (Dictionary.IsSorted o.contracts ∧ ∀ entry ∈ o.contracts, Dictionary.IsSorted entry.2)
    ⟨fun h => ⟨h.1, h.2⟩, fun h => ⟨h.sources, h.names⟩⟩

/-- An output that is read is sorted. -/
theorem isSorted_of_decoder {depth : Nat} {n : Node} (h : decoder depth n = .ok o) : o.IsSorted := by
  have hpreserves : record.Preserves (depth + 1) IsSorted := by
    refine ⟨?_, by simp [record]⟩
    simp only [record, List.forall_mem_cons]
    refine ⟨?_, ?_, ?_, by simp⟩
    · intro n store hstore x hx
      obtain ⟨contracts, hcontracts, rfl⟩ := map_eq_ok_iff.1 hstore
      exact ⟨Decoder.isSorted_of_dictionary hcontracts,
        Decoder.forall_of_dictionary (fun _ _ h => Decoder.isSorted_of_dictionary h) hcontracts⟩
    · intro n store hstore x hx
      obtain ⟨errors, -, rfl⟩ := map_eq_ok_iff.1 hstore
      exact ⟨hx.sources, hx.names⟩
    · intro n store hstore x hx
      obtain ⟨version, -, rfl⟩ := map_eq_ok_iff.1 hstore
      exact ⟨hx.sources, hx.names⟩
  exact hpreserves.decoder ⟨.nil, by simp [record]⟩ h

/-! ## The first contract with deployed code -/

/-- The contract of a target was compiled and has deployed code. -/
def HasDeployed (o : CompilerOutput) (t : Target) : Prop :=
  ∃ artifact, o.artifact? t = some artifact ∧ artifact.deployed ≠ ""

/-- The least target with deployed code. -/
def IsFirstDeployed (o : CompilerOutput) (t : Target) : Prop :=
  o.HasDeployed t ∧ ∀ other, o.HasDeployed other → other ≠ t → t.Before other

theorem IsFirstDeployed.unique {other : Target} (h : o.IsFirstDeployed t)
    (h' : o.IsFirstDeployed other) : other = t := by
  by_contra hne
  exact (h.2 other h'.1 hne).asymm (h'.2 t h.1 (Ne.symm hne))

/-- What has deployed code is among the contracts of its source. -/
theorem IsSorted.hasDeployed_iff (h : o.IsSorted) : o.HasDeployed t ↔
    ∃ contracts artifact, (t.source, contracts) ∈ o.contracts ∧ (t.contract, artifact) ∈ contracts ∧
      artifact.deployed ≠ "" := by
  constructor
  · rintro ⟨artifact, hfound, hcode⟩
    obtain ⟨contracts, hcontracts, hartifact⟩ := Option.bind_eq_some_iff.1 hfound
    exact ⟨contracts, artifact, Dictionary.mem_of_get? hcontracts, Dictionary.mem_of_get? hartifact,
      hcode⟩
  · rintro ⟨contracts, artifact, hcontracts, hartifact, hcode⟩
    refine ⟨artifact, Option.bind_eq_some_iff.2 ⟨contracts, ?_, ?_⟩, hcode⟩
    · exact (Dictionary.get?_eq_some_iff h.sources).2 hcontracts
    · exact (Dictionary.get?_eq_some_iff (h.names _ hcontracts)).2 hartifact

/-- The scan of a source finds something if one of its contracts has deployed code. -/
theorem find?_isSome {contracts : List (String × Artifact)} {name : String} {artifact : Artifact}
    (h : (name, artifact) ∈ contracts) (hcode : artifact.deployed ≠ "") :
    (contracts.find? fun entry => !entry.2.deployed.isEmpty).isSome = true :=
  List.find?_isSome.2 ⟨_, h, by simpa using hcode⟩

/-- The contract that the scan meets first is the least one with deployed code. -/
theorem IsSorted.isFirstDeployed_of_some (h : o.IsSorted) (hfound : o.firstDeployed? = some t) :
    o.IsFirstDeployed t := by
  obtain ⟨⟨source, contracts⟩, hsource, hscan, hleast⟩ :=
    Dictionary.exists_least_of_findSome? h.sources hfound
  obtain ⟨⟨name, artifact⟩, hname, rfl⟩ := Option.map_eq_some_iff.1 hscan
  have hcode : artifact.deployed ≠ "" := by simpa using List.find?_some hname
  refine ⟨h.hasDeployed_iff.2 ⟨_, _, hsource, List.mem_of_find?_eq_some hname, hcode⟩, ?_⟩
  rintro ⟨source', name'⟩ hother hne
  obtain ⟨contracts', artifact', hsource', hname', hcode'⟩ := h.hasDeployed_iff.1 hother
  rcases hleast _ hsource' (by simpa using find?_isSome hname' hcode') with heq | hlt
  · -- both are in one source, of which the scan took the least name
    obtain ⟨rfl, rfl⟩ := Prod.mk.inj heq
    rcases Dictionary.least_of_find? (h.names _ hsource) hname _ hname' (by simpa using hcode') with
      heq | hlt
    · obtain ⟨rfl, -⟩ := Prod.mk.inj heq
      exact absurd rfl hne
    · exact .inr ⟨rfl, Text.compare_eq_lt_iff.1 hlt⟩
  · exact .inl (Text.compare_eq_lt_iff.1 hlt)

/-- The scan goes through all contracts. -/
theorem IsSorted.not_hasDeployed_of_none (h : o.IsSorted) (hnone : o.firstDeployed? = none) :
    ¬ o.HasDeployed t := by
  intro hdeployed
  obtain ⟨contracts, artifact, hsource, hname, hcode⟩ := h.hasDeployed_iff.1 hdeployed
  have hscan := List.findSome?_eq_none_iff.1 hnone _ hsource
  have hfound := find?_isSome hname hcode
  rw [Option.map_eq_none_iff.1 hscan] at hfound
  cases hfound

/-! ## The choice -/

/-- The declared target has both names and was compiled. -/
def Offers (o : CompilerOutput) (declared : Option Target) (t : Target) : Prop :=
  declared = some t ∧ (t.source ≠ "" ∧ t.contract ≠ "") ∧ ∃ artifact, o.artifact? t = some artifact

/-- What the choice of the contract comes to. -/
inductive Chooses (o : CompilerOutput) (declared : Option Target) :
    Except ResolutionError Target → Prop
  | declared {t : Target} (offered : o.Offers declared t) : Chooses o declared (.ok t)
  | first {t : Target} (unoffered : ∀ t, ¬ o.Offers declared t) (first : o.IsFirstDeployed t) :
    Chooses o declared (.ok t)
  /-- The compiler reported errors, of which all are told in order: the formatted text, else the message. -/
  | diagnostics (unoffered : ∀ t, ¬ o.Offers declared t) (nothing : ∀ t, ¬ o.HasDeployed t)
    (reported : ∃ d ∈ o.errors, d.severity.toLower = "error") :
    Chooses o declared (.error (.diagnostics ((o.errors.filter fun d => d.severity.toLower = "error").map
      fun d => match d.formattedMessage with
        | some text => text
        | none => d.message)))
  | notFound (unoffered : ∀ t, ¬ o.Offers declared t) (nothing : ∀ t, ¬ o.HasDeployed t)
    (unreported : ∀ d ∈ o.errors, d.severity.toLower ≠ "error") : Chooses o declared (.error .notFound)

theorem declared?_eq_some_iff : o.declared? declared = some t ↔ o.Offers declared t := by
  rw [declared?, Option.filter_eq_some_iff, Bool.and_eq_true, Bool.not_eq_true',
    Target.isBlank_eq_false_iff, Option.isSome_iff_exists]
  rfl

theorem isError_eq_decide {d : Diagnostic} : d.isError = decide (d.severity.toLower = "error") := by
  refine decide_eq_decide.2 ?_
  have hlower : d.severity.toLower = d.severity.map Char.toLower := rfl
  rw [hlower, ← String.toList_inj, String.toList_map]
  rfl

/-- The errors that are told are those of severity "error", in letters of either case. -/
theorem errorTexts_eq : o.errorTexts = (o.errors.filter fun d => d.severity.toLower = "error").map
    fun d => match d.formattedMessage with
      | some text => text
      | none => d.message := by
  have htext : ∀ d : Diagnostic, d.text = match d.formattedMessage with
      | some text => text
      | none => d.message := by
    intro d
    rw [Diagnostic.text]
    cases d.formattedMessage <;> rfl
  rw [errorTexts, funext fun d => @isError_eq_decide d, funext htext]

theorem isEmpty_errorTexts_iff :
    o.errorTexts.isEmpty = true ↔ ∀ d ∈ o.errors, d.severity.toLower ≠ "error" := by
  simp [errorTexts_eq]

/-- The choice comes to what it should. -/
theorem IsSorted.chooses_resolve (h : o.IsSorted) : o.Chooses declared (o.resolve declared) := by
  unfold resolve
  cases hoffered : o.declared? declared with
  | some t => exact .declared (declared?_eq_some_iff.1 hoffered)
  | none =>
    have hunoffered : ∀ t, ¬ o.Offers declared t := by
      intro t hoffers
      rw [declared?_eq_some_iff.2 hoffers] at hoffered
      cases hoffered
    cases hfirst : o.firstDeployed? with
    | some t => exact .first hunoffered (h.isFirstDeployed_of_some hfirst)
    | none =>
      have hnothing : ∀ t, ¬ o.HasDeployed t := fun t => h.not_hasDeployed_of_none hfirst
      dsimp only
      split
      · next hempty => exact .notFound hunoffered hnothing (isEmpty_errorTexts_iff.1 hempty)
      · next hreported =>
        rw [isEmpty_errorTexts_iff] at hreported
        rw [errorTexts_eq]
        exact .diagnostics hunoffered hnothing (by simpa using hreported)

/-- It comes to nothing else. -/
theorem Chooses.unique {r r' : Except ResolutionError Target} (h : o.Chooses declared r)
    (h' : o.Chooses declared r') : r = r' := by
  cases h with
  | declared offered =>
    cases h' with
    | declared offered' =>
      rw [offered.1] at offered'
      rw [Option.some.inj offered'.1]
    | first unoffered | diagnostics unoffered | notFound unoffered => exact absurd offered (unoffered _)
  | first unoffered first =>
    cases h' with
    | declared offered => exact absurd offered (unoffered _)
    | first _ first' => rw [first.unique first']
    | diagnostics _ nothing | notFound _ nothing => exact absurd first.1 (nothing _)
  | diagnostics unoffered nothing reported =>
    cases h' with
    | declared offered => exact absurd offered (unoffered _)
    | first _ first => exact absurd first.1 (nothing _)
    | diagnostics => rfl
    | notFound _ _ unreported =>
      obtain ⟨d, hd, herror⟩ := reported
      exact absurd herror (unreported d hd)
  | notFound unoffered nothing unreported =>
    cases h' with
    | declared offered => exact absurd offered (unoffered _)
    | first _ first => exact absurd first.1 (nothing _)
    | diagnostics _ _ reported =>
      obtain ⟨d, hd, herror⟩ := reported
      exact absurd herror (unreported d hd)
    | notFound => rfl

/-- What is chosen was compiled. -/
theorem IsSorted.exists_artifact (h : o.IsSorted) (hchosen : o.resolve declared = .ok t) :
    ∃ artifact, o.artifact? t = some artifact := by
  have hchooses : o.Chooses declared (.ok t) := hchosen ▸ h.chooses_resolve
  cases hchooses with
  | declared offered => exact offered.2.2
  | first _ first =>
    obtain ⟨artifact, hartifact, -⟩ := first.1
    exact ⟨artifact, hartifact⟩

/-- How the contract of interest is chosen from an output and taken out of it. -/
structure ChoosesRight (o : CompilerOutput) (declared : Option Target) (tag : Option String) : Prop where
  /-- The choice comes to one thing. -/
  chosen : ∀ r, o.resolve declared = r ↔ o.Chooses declared r
  /-- The declared target is chosen if the output offers it, or if it is the first anyway. -/
  itself : ∀ t, declared = some t →
    (o.resolve declared = .ok t ↔
      ((t.source ≠ "" ∧ t.contract ≠ "") ∧ ∃ artifact, o.artifact? t = some artifact) ∨
        o.IsFirstDeployed t)
  /-- What is taken out is the target that is chosen, what the output has for it, and the version that the
  output tells or else the tag. -/
  taken : ∀ compilation, o.compilation declared tag = .ok compilation ↔
    o.resolve declared = .ok compilation.target ∧
      o.artifact? compilation.target = some compilation.artifact ∧
      compilation.reviveVersion = o.reviveVersion.or tag
  /-- Nothing is taken out exactly if nothing is chosen. -/
  failed : ∀ e, o.compilation declared tag = .error e ↔ o.resolve declared = .error e

/-- From a sorted output the contract is chosen right. -/
theorem choosesRight_of_isSorted (h : o.IsSorted) (declared : Option Target) (tag : Option String) :
    o.ChoosesRight declared tag where
  chosen r := by
    constructor
    · rintro rfl
      exact h.chooses_resolve
    · exact fun hr => h.chooses_resolve.unique hr
  itself t ht := by
    constructor
    · intro hchosen
      have hchooses : o.Chooses declared (.ok t) := hchosen ▸ h.chooses_resolve
      cases hchooses with
      | declared offered => exact .inl offered.2
      | first _ first => exact .inr first
    · intro hright
      refine h.chooses_resolve.unique ?_
      by_cases hoffers : o.Offers declared t
      · exact .declared hoffers
      · -- what is declared is not offered, so that the scan decides
        have hfirst : o.IsFirstDeployed t := hright.resolve_left fun hoffered => hoffers ⟨ht, hoffered⟩
        refine .first ?_ hfirst
        intro other hother
        rw [ht] at hother
        rw [← Option.some.inj hother.1] at hother
        exact hoffers (ht ▸ hother)
  taken compilation := by
    unfold CompilerOutput.compilation
    cases hchosen : o.resolve declared with
    | error e => simp
    | ok t =>
      obtain ⟨artifact, hartifact⟩ := h.exists_artifact hchosen
      dsimp only
      rw [hartifact]
      constructor
      · intro htaken
        cases htaken
        exact ⟨rfl, hartifact, rfl⟩
      · obtain ⟨target, artifact', version⟩ := compilation
        rintro ⟨htarget, hartifact', hversion⟩
        cases htarget
        rw [hartifact] at hartifact'
        cases hartifact'
        rw [← hversion]
  failed e := by
    unfold CompilerOutput.compilation
    cases hchosen : o.resolve declared with
    | error e' => simp
    | ok t =>
      obtain ⟨artifact, hartifact⟩ := h.exists_artifact hchosen
      simp [hartifact]

/-- The declared target lacks a name, and the first contract of all has no deployed code. -/
theorem choosesRight_of_isSorted_fallback :
    let o : CompilerOutput := {
      contracts := [
        ("a.sol", [("A", ⟨[], "6080", ""⟩), ("B", ⟨[], "6080", "6001"⟩)]),
        ("b.sol", [("A", ⟨[], "6080", "6002"⟩)])]
      errors := []
      reviveVersion := none }
    o.IsSorted ∧ o.Chooses (some ⟨"b.sol", ""⟩) (.ok ⟨"a.sol", "B"⟩) := by
  intro o
  have hsorted : o.IsSorted := by decide +kernel
  have hright : o.ChoosesRight (some ⟨"b.sol", ""⟩) none := choosesRight_of_isSorted hsorted _ _
  exact ⟨hsorted, (hright.chosen _).1 rfl⟩

/-- A contract without a name that is the first of all is chosen when it is declared too. -/
theorem resolve_of_nameless :
    let o : CompilerOutput := {
      contracts := [("a.sol", [("", ⟨[], "6080", "6001"⟩)]), ("b.sol", [("B", ⟨[], "6080", "6002"⟩)])]
      errors := []
      reviveVersion := none }
    let t : Target := ⟨"a.sol", ""⟩
    o.IsSorted ∧ ¬ (o.resolve (some t) = .ok t ↔
      (t.source ≠ "" ∧ t.contract ≠ "") ∧ ∃ artifact, o.artifact? t = some artifact) := by
  intro o t
  refine ⟨by decide +kernel, ?_⟩
  intro hiff
  have hnamed : t.contract ≠ "" := (hiff.1 rfl).1.2
  exact hnamed rfl

end CompilerOutput

end Provenance
