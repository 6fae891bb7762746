import Provenance.Proofs.Address
import Provenance.Proofs.Verification.Effects

/-!
# The addresses that chains are asked for

A chain is asked for the address of a request that is in order, as it is marked. So its nodes and its indexer
are only ever sent the mark and 40 digits.
-/

namespace Provenance

open Text

variable {ν : Type} {v : Verifier ν} {o : Outside ν} {r : Request} {w : World ν}

namespace Verifier.Course

variable {trace : List Effect} {result : Except VerifierError Outcome}

/-- Only the address of a request in order is asked for. -/
theorem asked_address (h : Course v o r w trace result) {chain : Nat} {address : String}
    (hmem : .deployedCode chain address ∈ trace ∨ .creationCode chain address ∈ trace) :
    Address.isValid r.address.toList = true ∧ address = String.ofList (Hex.marked r.address.toList) := by
  have haddress : address = String.ofList (Hex.marked r.address.toList) := by
    obtain ⟨job, hsublist⟩ := h.sublist
    rcases hmem with hmem | hmem
    · have hstep := hsublist.subset hmem
      simp only [List.mem_cons, List.not_mem_nil, Effect.deployedCode.injEq, reduceCtorEq, false_or,
        or_false] at hstep
      exact hstep.2
    · have hstep := hsublist.subset hmem
      simp only [List.mem_cons, List.not_mem_nil, Effect.creationCode.injEq, reduceCtorEq, false_or,
        or_false] at hstep
      exact hstep.2
  refine ⟨?_, haddress⟩
  rcases h.provision with rfl | ⟨task, provision, result, s, job, rest, asked, -⟩
  · rcases hmem with hmem | hmem <;> cases hmem
  · obtain ⟨text, -, -, -, -, -, hvalid, -⟩ := Request.task_eq_ok_iff.1 asked
    exact hvalid

end Verifier.Course

namespace Address

/-- How a text is taken for an address, and what is made of it. -/
structure Canonical (cs : List Char) : Prop where
  /-- Exactly the spellings of addresses are valid. -/
  valid_iff : isValid cs = true ↔ ∃ digits, AreDigits digits ∧ Spells cs digits
  /-- A spelling is marked as the same digits, up to letter case. -/
  marked : ∀ digits, AreDigits digits → Spells cs digits →
    ∃ same, AreDigits same ∧ Hex.marked cs = Hex.mark ++ same ∧ asciiLowercase same = asciiLowercase digits
  /-- What is marked is not marked again. -/
  settled : Hex.marked (Hex.marked cs) = Hex.marked cs

/-- Every text is taken for an address exactly if it is one, and whatever the request, the endpoints of chains
are asked for the mark and 40 digits: those of the request, up to letter case. -/
theorem canonical_and_asked :
    (∀ cs, Canonical cs) ∧
      ∀ (ν : Type) (recompiler : Recompiler) (registry : Registry) (r : Request) (o : Outside ν) (w : World ν),
        ∃ trace, (Verifier.verify ⟨recompiler, registry.client⟩ r o w).2.effects = w.effects ++ trace ∧
          ∀ chain address,
            .deployedCode chain address ∈ trace ∨ .creationCode chain address ∈ trace →
              ∃ digits same, AreDigits digits ∧ Spells r.address.toList digits ∧ AreDigits same ∧
                address.toList = Hex.mark ++ same ∧ asciiLowercase same = asciiLowercase digits := by
  refine ⟨fun cs => ⟨isValid_iff, fun digits hdigits hspells => hspells.marked hdigits,
    Hex.marked_marked cs⟩, ?_⟩
  intro ν recompiler registry r o w
  obtain ⟨trace, heffects, hcourse⟩ :=
    Verifier.course_verify (v := ⟨recompiler, registry.client⟩) registry.client_sparesCache r o w
  refine ⟨trace, heffects, fun chain address hmem => ?_⟩
  obtain ⟨hvalid, haddress⟩ := hcourse.asked_address hmem
  obtain ⟨digits, hdigits, hspells⟩ := isValid_iff.1 hvalid
  obtain ⟨same, hsame, hmarked, hcase⟩ := hspells.marked hdigits
  have htext : address.toList = Hex.mark ++ same := by rw [haddress, String.toList_ofList, hmarked]
  exact ⟨digits, same, hdigits, hspells, hsame, htext, hcase⟩

end Address

end Provenance
