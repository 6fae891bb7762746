import Provenance.Proofs.Independence

/-!
# How verifications go

A verification goes through its steps in order and ends with the first that fails. `Performance` lists how
it may go, each time with the results of the steps before and the worlds between them.
-/

namespace Provenance.Verifier

variable {ν : Type} {v : Verifier ν} {o : Outside ν} {task : Task} {w : World ν}

/-- The event that reports a finished verification. -/
def finishedEvent (compiled : Compilation) (verdict : Bytecode.Verdict) : Log.Event :=
  ⟨.info, Log.Part.verification.target, .shown "Verification finished",
    [("status", .shown verdict.status.text), ("target", .shown compiled.target.text)]⟩

/-- How a task is performed: with which result, and what world it leaves. -/
inductive Performance (v : Verifier ν) (o : Outside ν) (task : Task) (w : World ν) :
    Except VerifierError Outcome × World ν → Prop
  /-- There is no compiler. -/
  | unprovided {e w₁} (provided : v.recompiler.cache.ensure task.version o w = (.error e, w₁)) :
    Performance v o task w (.error (.compiler e), w₁)
  /-- There is no code on the chain. -/
  | unfetched {path w₁ e w₂} (provided : v.recompiler.cache.ensure task.version o w = (.ok path, w₁))
    (fetched : v.fetchCode task o w₁ = (.error e, w₂)) :
    Performance v o task w (.error e, w₂)
  /-- The metadata is no document of its kind. -/
  | unread {path w₁ code w₂ flaw}
    (provided : v.recompiler.cache.ensure task.version o w = (.ok path, w₁))
    (fetched : v.fetchCode task o w₁ = (.ok code, w₂))
    (read : Metadata.parse task.metadataText = .error flaw) :
    Performance v o task w (.error (.invalidMetadata flaw.message), w₂)
  | uncompiled {path w₁ code w₂ m e w₃}
    (provided : v.recompiler.cache.ensure task.version o w = (.ok path, w₁))
    (fetched : v.fetchCode task o w₁ = (.ok code, w₂)) (read : Metadata.parse task.metadataText = .ok m)
    (compiled : v.compile m task.version o w₂ = (.error e, w₃)) :
    Performance v o task w (.error e, w₃)
  | uncompared {path w₁ code w₂ m compilation w₃ e w₄}
    (provided : v.recompiler.cache.ensure task.version o w = (.ok path, w₁))
    (fetched : v.fetchCode task o w₁ = (.ok code, w₂)) (read : Metadata.parse task.metadataText = .ok m)
    (compiled : v.compile m task.version o w₂ = (.ok compilation, w₃))
    (compared : Bytecode.compare v.client task.chain task.address code compilation.artifact o w₃
      = (.error e, w₄)) :
    Performance v o task w (.error e, w₄)
  | finished {path w₁ code w₂ m compilation w₃ verdict w₄}
    (provided : v.recompiler.cache.ensure task.version o w = (.ok path, w₁))
    (fetched : v.fetchCode task o w₁ = (.ok code, w₂)) (read : Metadata.parse task.metadataText = .ok m)
    (compiled : v.compile m task.version o w₂ = (.ok compilation, w₃))
    (compared : Bytecode.compare v.client task.chain task.address code compilation.artifact o w₃
      = (.ok verdict, w₄)) :
    Performance v o task w
      (.ok (outcomeOf compilation verdict), w₄.logged [finishedEvent compilation verdict])

/-- Every task is performed in one of these ways. -/
theorem performance (v : Verifier ν) (o : Outside ν) (task : Task) (w : World ν) :
    Performance v o task w (v.perform task o w) := by
  unfold perform
  rcases hensure : v.recompiler.cache.ensure task.version o w with ⟨e | path, w₁⟩
  · have hfailed : ((v.recompiler.cache.ensure task.version).mapError VerifierError.compiler) o w
        = (.error (.compiler e), w₁) := by
      rw [Session.mapError_apply, hensure, mapError_error]
    rw [Session.bind_of_error hfailed]
    exact .unprovided hensure
  · have hprovided : ((v.recompiler.cache.ensure task.version).mapError VerifierError.compiler) o w
        = (.ok path, w₁) := by
      rw [Session.mapError_apply, hensure, mapError_ok]
    rw [Session.bind_of_ok hprovided]
    rcases hfetch : v.fetchCode task o w₁ with ⟨e | code, w₂⟩
    · rw [Session.bind_of_error hfetch]
      exact .unfetched hensure hfetch
    · rw [Session.bind_of_ok hfetch]
      cases hread : Metadata.parse task.metadataText with
      | error flaw => exact .unread hensure hfetch hread
      | ok m =>
        have hparsed : (Session.ofExcept (.ok m) : Session ν VerifierError Metadata) o w₂ = (.ok m, w₂) := rfl
        rw [mapError_ok, Session.bind_of_ok hparsed]
        rcases hcompile : v.compile m task.version o w₂ with ⟨e | compilation, w₃⟩
        · rw [Session.bind_of_error hcompile]
          exact .uncompiled hensure hfetch hread hcompile
        · rw [Session.bind_of_ok hcompile]
          rcases hcompare : Bytecode.compare v.client task.chain task.address code compilation.artifact o w₃
            with ⟨e | verdict, w₄⟩
          · rw [Session.bind_of_error hcompare]
            exact .uncompared hensure hfetch hread hcompile hcompare
          · rw [Session.bind_of_ok hcompare]
            exact .finished hensure hfetch hread hcompile hcompare

/-! ## The request -/

variable {r : Request}

/-- A request that is not in order is turned down, and nothing else happens. -/
theorem verify_of_refused {e : VerifierError} (h : r.task = .error e) (o : Outside ν) (w : World ν) :
    v.verify r o w = (.error e, w) := by
  unfold Request.task at h
  unfold verify checkAndPerform Session.within
  cases hmetadata : r.metadataText? with
  | none =>
    rw [hmetadata] at h
    cases h
    rfl
  | some text =>
    rw [hmetadata] at h
    dsimp only at h ⊢
    rw [h]
    rfl

/-- What a request in order asks for is done inside a span. -/
theorem verify_of_task (h : r.task = .ok task) (o : Outside ν) (w : World ν) :
    ∃ span, v.verify r o w
      = ((v.perform task o { w with spans := span :: w.spans }).1,
          { (v.perform task o { w with spans := span :: w.spans }).2 with
            spans := (v.perform task o { w with spans := span :: w.spans }).2.spans.tail }) := by
  unfold Request.task at h
  cases hmetadata : r.metadataText? with
  | none =>
    rw [hmetadata] at h
    cases h
  | some text =>
    rw [hmetadata] at h
    refine ⟨(Log.Span.start "verify" .info Log.Part.verification.target
      [("chain_id", .integer r.chain), ("address", .shown r.address)]).record "metadata_len"
        (.integer text.utf8ByteSize), ?_⟩
    unfold verify checkAndPerform Session.within
    rw [hmetadata]
    dsimp only at h ⊢
    rw [h]
    rfl

end Provenance.Verifier
