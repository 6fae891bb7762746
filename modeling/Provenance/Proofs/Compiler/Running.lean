import Provenance.Compiler.Recompile
import Provenance.Proofs.Cache.Provision

/-!
# What compiling does to the outside

With a version that the cache knows, compiling does nothing to the outside but to run one program, and it
fails if that is not run (`Recompiler.runsOnce_recompile`).
-/

namespace Provenance

variable {ν ε δ α β : Type} {o : Outside ν} {w : World ν}

namespace Session

variable {session : Session ν ε α} {f : α → Session ν ε β} {input : Bytes}

/-- A session runs one program on an input, or it fails and does nothing. -/
def RunsOnce (o : Outside ν) (input : Bytes) (session : Session ν ε α) (w : World ν) : Prop :=
  ((session o w).2.effects = w.effects ∧ ∃ e, (session o w).1 = .error e) ∨
    ∃ job : Program.Job, job.input = input ∧ (session o w).2.effects = w.effects ++ [.run job]

namespace RunsOnce

/-- Passing on what was made of a run leaves it the only one. -/
theorem bind (h : RunsOnce o input session w) (hf : ∀ a, Passive o (f a)) :
    RunsOnce o input (session >>= f) w := by
  unfold RunsOnce at h ⊢
  rw [bind_apply]
  revert h
  generalize session o w = r
  obtain ⟨result, w'⟩ := r
  intro h
  cases result with
  | error e => exact h.imp (fun h => ⟨h.1, e, rfl⟩) id
  | ok a =>
    rcases h with ⟨-, e, he⟩ | ⟨job, hinput, heffects⟩
    · cases he
    · exact .inr ⟨job, hinput, (hf a w').2.trans heffects⟩

/-- What comes before a run may fail. -/
theorem of_bind (h : Passive o session) (hf : ∀ a w, RunsOnce o input (f a) w) :
    RunsOnce o input (session >>= f) w := by
  have heffects := (h w).2
  unfold RunsOnce
  rw [bind_apply]
  revert heffects
  generalize session o w = r
  obtain ⟨result, w'⟩ := r
  intro heffects
  cases result with
  | error e => exact .inl ⟨heffects, e, rfl⟩
  | ok a =>
    dsimp only at heffects ⊢
    rw [← heffects]
    exact hf a w'

theorem within {name : String} {part : Log.Part} {fields : Log.Fields}
    (h : ∀ spans, RunsOnce o input session { w with spans := spans }) :
    RunsOnce o input (session.within name part fields) w := h _

end RunsOnce

/-- A program that can be started is run. -/
theorem run_cases (program : String) (arguments : List String) (input : Bytes) (limit : Duration)
    (w : World ν) :
    (∃ fault, (run program arguments input limit : Session ν ε _) o w = (.ok (.notStarted fault), w)) ∨
      ∃ job ending w', (run program arguments input limit : Session ν ε _) o w = (.ok ending, w') ∧
        (o.run job w.outside).1 = ending ∧ job.input = input ∧ w'.effects = w.effects ++ [.run job] := by
  unfold run
  split
  · exact .inl ⟨_, rfl⟩
  · exact .inl ⟨_, rfl⟩
  · split
    · exact .inl ⟨_, rfl⟩
    · exact .inr ⟨_, _, _, rfl, rfl, rfl, rfl⟩

end Session

namespace Recompiler

variable {r : Recompiler} {m : Metadata} {version path : String}

/-- The file of the compiler is run, if it can be. -/
theorem runsOnce_runCompiler (backend : Backend) (i : Invocation) (input : Bytes) (w : World ν) :
    Session.RunsOnce o input (r.runCompiler backend i input) w := by
  refine .of_bind (.log _ _ _ _) fun _ w => ?_
  rcases @Session.run_cases ν CompilerError o i.program i.arguments input r.limit w with
    ⟨fault, hrun⟩ | ⟨job, ending, w', hrun, -, hinput, heffects⟩
  · refine .inl ?_
    rw [Session.bind_of_ok hrun]
    exact ⟨rfl, _, rfl⟩
  · refine .inr ⟨job, hinput, ?_⟩
    rw [Session.bind_of_ok hrun]
    refine ((?_ : Session.Passive o _) w').2.trans heffects
    split
    · exact .pure _
    · split
      · exact .bind (.log _ _ _ _) fun _ => .fail _
      · exact .fail _

theorem passive_invocation (backend : Backend) (cache : Cache) (compiler : String) :
    Session.Passive o (backend.invocation cache compiler : Session ν _ _) := by
  cases backend with
  | solc => exact .pure _
  | revive tag =>
    rw [Backend.invocation]
    dsimp only
    split
    · exact .fail _
    · refine ((Session.Passive.ask _).mapError _).bind fun isInstalled => ?_
      split
      · exact .pure _
      · exact .fail _

/-- Compiling with a known version runs one program on the compiler input, or it fails and does nothing. -/
theorem runsOnce_recompile (hsafe : Version.isSafe version.toList = true)
    (hknown : w.memory.path? version = some path) :
    Session.RunsOnce o (Text.encode m.standardJson.toValue.encode) (r.recompile m version) w := by
  have hcompile : ∀ w : World ν, w.memory.path? version = some path →
      Session.RunsOnce o (Text.encode m.standardJson.toValue.encode) (r.compileWith m version) w := by
    intro w hknown
    unfold Session.RunsOnce
    rw [compileWith, Session.bind_of_ok (Cache.ensure_eq_of_known hsafe hknown)]
    refine Session.RunsOnce.of_bind (.record _ _) fun _ w => .of_bind (passive_invocation _ _ _) fun i w => ?_
    exact (runsOnce_runCompiler _ _ _ _).bind fun output =>
      .bind (.ofExcept _) fun decoded => Session.Passive.closed.choose _ _ _
  unfold recompile
  exact .within fun spans => hcompile _ hknown

end Recompiler

end Provenance
