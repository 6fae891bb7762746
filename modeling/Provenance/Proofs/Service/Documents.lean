import Provenance.Proofs.Compiler.Flawless
import Provenance.Proofs.Verification.Effects
import Provenance.Proofs.Wire
import Provenance.Service.Route

/-!
# The documents of answers

An answer to a verification is sent as the document of a response (`Http.Outgoing.Carries`). It is read back
from there: the interface of a compiled contract was itself read from a document, the compiler's, in which it
stood deeper.
-/

namespace Provenance

open Json

variable {ν : Type} {depth : Nat} {n : Node}

/-! ## Interfaces that were read -/

theorem Artifact.isRead_abi {a : Artifact} (h : record.decoder depth n = .ok a) :
    ∀ v ∈ a.abi, IsRead (depth + 2) v := by
  have hpreserves : record.Preserves (depth + 1) fun a => ∀ v ∈ a.abi, IsRead (depth + 2) v := by
    refine ⟨?_, by simp [record]⟩
    simp only [record, List.forall_mem_cons]
    refine ⟨?_, ?_, by simp⟩
    · intro n store hstore x _
      obtain ⟨abi, habi, rfl⟩ := map_eq_ok_iff.1 hstore
      have hlist : IsRead (depth + 1) (.array abi) := ⟨n, by simpa using Decoder.Inverts.value.list habi⟩
      exact hlist.items.2
    · intro n store hstore x hx
      obtain ⟨codes, -, rfl⟩ := map_eq_ok_iff.1 hstore
      exact hx
  exact hpreserves.decoder (by simp [record]) h

/-- In an output a contract stands inside three objects. -/
theorem CompilerOutput.isRead_abi {o : CompilerOutput} (h : decoder depth n = .ok o) :
    ∀ entry ∈ o.contracts, ∀ contract ∈ entry.2, ∀ v ∈ contract.2.abi, IsRead (depth + 5) v := by
  have hpreserves : record.Preserves (depth + 1) fun o =>
      ∀ entry ∈ o.contracts, ∀ contract ∈ entry.2, ∀ v ∈ contract.2.abi, IsRead (depth + 5) v := by
    refine ⟨?_, by simp [record]⟩
    simp only [record, List.forall_mem_cons]
    refine ⟨?_, ?_, ?_, by simp⟩
    · intro n store hstore x _
      obtain ⟨contracts, hcontracts, rfl⟩ := map_eq_ok_iff.1 hstore
      exact Decoder.forall_of_dictionary
        (fun _ _ hnamed => Decoder.forall_of_dictionary (fun _ _ ha => Artifact.isRead_abi ha) hnamed)
        hcontracts
    · intro n store hstore x hx
      obtain ⟨errors, -, rfl⟩ := map_eq_ok_iff.1 hstore
      exact hx
    · intro n store hstore x hx
      obtain ⟨version, -, rfl⟩ := map_eq_ok_iff.1 hstore
      exact hx
  exact hpreserves.decoder (by simp [record]) h

namespace Recompiler

variable {r : Recompiler} {m : Metadata} {version : String} {o : Outside ν} {w : World ν}
  {compilation : Compilation}

theorem isRead_abi_of_compilationOf {output : Bytes} (h : compilationOf m output = .ok compilation) :
    ∀ v ∈ compilation.artifact.abi, IsRead 5 v := by
  obtain ⟨decoded, hread, hchosen⟩ := compilationOf_eq_ok_iff.1 h
  obtain ⟨-, hartifact, -⟩ := CompilerOutput.compilation_eq_ok_iff.1 hchosen
  obtain ⟨contracts, hsource, hname⟩ := Option.bind_eq_some_iff.1 hartifact
  exact CompilerOutput.isRead_abi (decoder_of_decodeBytes hread) _ (Dictionary.mem_of_get? hsource) _
    (Dictionary.mem_of_get? hname)

/-- What is compiled was read from what some program wrote. -/
theorem exists_output (h : (r.recompile m version o w).1 = .ok compilation) :
    ∃ job x output errors, (o.run job x).1 = .ended (.code 0) output errors none ∧
      compilationOf m output = .ok compilation := by
  have hcourse := course r o m version w
  revert h hcourse
  generalize r.recompile m version o w = run
  intro h hcourse
  cases hcourse with
  | @finished w₀ path w₁ w₂ i w₃ w₄ ending w₅ output w' _ _ _ _ _ ran collected _ =>
    obtain ⟨errors, rfl⟩ := outputOf_eq_ok_iff.1 collected
    rcases @Session.run_cases ν CompilerError o i.program i.arguments (inputFor m) r.limit w₄ with
      ⟨fault, hrun⟩ | ⟨job, ending, w', hrun, hended, -⟩
    · cases ran.symm.trans hrun
    · cases ran.symm.trans hrun
      exact ⟨job, w₄.outside, output, errors, hended, h⟩
  | _ => cases h

end Recompiler

/-- What a verification compares was read from what some program wrote. -/
theorem Verifier.exists_output {v : Verifier ν} {m : Metadata} {version : String} {o : Outside ν}
    {w : World ν} {compilation : Compilation} (h : (v.compile m version o w).1 = .ok compilation) :
    ∃ job x output errors, (o.run job x).1 = .ended (.code 0) output errors none ∧
      Recompiler.compilationOf m output = .ok compilation := by
  obtain ⟨events, events', hcompile⟩ := compile_cases v m version o w
  rw [hcompile] at h
  exact Recompiler.exists_output (mapError_eq_ok_iff.1 h)

/-! ## What is sent -/

/-- What is sent is the document of a response: it is called a document, it has a member for each part of the
response that has a value, and the response is what is read from it. (That a number that is no integer is read
back is not said.) -/
structure Http.Outgoing.Carries (out : Outgoing) (r : Response) : Prop where
  typed : out.contentType = some "application/json"
  written : ∃ name, (name, r.status) ∈ [("perfect", Status.perfect), ("partial", .partially),
      ("mismatch", .mismatch)] ∧
    out.body = (Value.object (("verified_status", .string name) :: ("message", .string r.message) ::
      [(r.abi.map fun items => ("abi", Value.array items)).toList,
        (r.creationLength.map fun n : Nat => ("creation_bytecode_length", Value.integer n)).toList,
        (r.reviveVersion.map fun version => ("revive_version", Value.string version)).toList,
        (r.constructorArguments.map fun text => ("constructor_args", Value.string text)).toList].flatten)).encode
  read : (∀ items, r.abi = some items → ∀ v ∈ items, v.HasOnlyIntegers) →
    (∀ n, r.creationLength = some n → n < 2 ^ 64) → decodeText Response.decoder out.body = .ok r

/-- An answer carries its body, if the interface in it was read. -/
theorem Service.carries_ofAnswer {a : Answer} (habi : ∀ items ∈ a.body.abi, ∀ v ∈ items, IsRead 5 v) :
    (ofAnswer a).Carries a.body where
  typed := rfl
  written := by
    refine ⟨a.body.status.text, ?_, by rw [ofAnswer, Response.toValue_eq]; rfl⟩
    cases a.body.status <;> simp [Status.text]
  read hintegers hlength := by
    have hfree : ∀ items ∈ a.body.abi, ∀ v ∈ items, v.IsFreeForm 122 := fun items hitems v hv =>
      (habi items hitems v hv).isFreeForm (hintegers items hitems v hv) (by decide)
    exact Response.decodeText_toValue (fun n hn => isUnsigned_of_lt (hlength n hn)) (by decide) hfree

end Provenance
