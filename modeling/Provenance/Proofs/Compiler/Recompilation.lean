import Provenance.Compiler.Recompile
import Provenance.Proofs.Cache.Ensuring

/-!
# What compiling again asks for

The compiler of a version that is known and the toolchain around it are files of one directory, under the
version and the tag as their names. Compiling again ends alike in two worlds if the one of them that is run
is the same file there (`Recompiler.agrees_recompile`), and fails for want of a toolchain where nothing
stands under the tag (`Recompiler.compileWith_of_missing`).
-/

namespace Provenance

open Cache (Shared Answers)

variable {ν : Type} {o : Outside ν} {w : World ν} {s s' : Shared} {version : String} {m : Metadata}
  {replies : Cache.Replies}

/-- The name of the file that is run, given the compiler's version. -/
def Backend.fileName (version : String) : Backend → String
  | .solc => version
  | .revive tag => tag.getD Release.defaultBinary

/-- An error says that a toolchain is not installed only where nothing stands in its place. -/
def CompilerError.IsTrueOn (d : Disk) (e : CompilerError) : Prop :=
  ∀ path, e = .toolchainNotInstalled path → d.exists? path = .ok false

namespace Backend

variable {backend : Backend} {cache : Cache}

/-- What is run is the file of that name. -/
theorem program_of_invocation {i : Invocation} (hversion : Version.isSafe version.toList = true)
    (h : (backend.invocation cache (cache.path version) o w).1 = .ok i) :
    Version.isSafe (backend.fileName version).toList = true ∧
      i.program = cache.path (backend.fileName version) := by
  cases backend with
  | solc =>
    cases h
    exact ⟨hversion, rfl⟩
  | revive tag =>
    rw [invocation] at h
    dsimp only at h
    split at h
    · cases h
    · next hsafe =>
      refine ⟨by simpa [fileName] using hsafe, ?_⟩
      revert h
      rw [Session.bind_apply]
      split
      · split
        · rintro ⟨⟩
          rfl
        · rintro ⟨⟩
      · rintro ⟨⟩

/-- A toolchain that is not there is not run. -/
theorem invocation_of_missing {tag : Option String} (compiler : String)
    (hbackend : backend = .revive tag)
    (hsafe : Version.isSafe (backend.fileName version).toList = true)
    (hmissing : s.disk.exists? (cache.path (backend.fileName version)) = .ok false) (hw : w.At s) :
    (backend.invocation cache compiler o w).1
      = .error (.toolchainNotInstalled (cache.path (backend.fileName version))) := by
  subst hbackend
  dsimp only [fileName] at hsafe hmissing ⊢
  have hask : ((Session.ask fun d => d.exists? (cache.path (tag.getD Release.defaultBinary))).mapError
      (CompilerError.cache (cache.path (tag.getD Release.defaultBinary)))) o w = (.ok false, w) := by
    rw [Session.mapError_apply, Session.ask_of_at hw, hmissing]
    rfl
  rw [invocation]
  simp only [hsafe, Bool.not_true, Bool.false_eq_true, if_false, Session.bind_of_ok hask]
  rfl

theorem agrees_invocation (compiler : String)
    (hfile : Version.isSafe (backend.fileName version).toList = true →
      s'.disk.find (cache.path (backend.fileName version))
        = s.disk.find (cache.path (backend.fileName version))) :
    Session.Agrees o s s' (CompilerError.IsTrueOn s.disk) (backend.invocation cache compiler) := by
  cases backend with
  | solc => exact .pure _
  | revive tag =>
    rw [invocation]
    dsimp only [fileName] at hfile ⊢
    generalize tag.getD Release.defaultBinary = name at hfile ⊢
    split
    · exact .fail nofun
    · next hsafe =>
      have hexists := Disk.exists?_congr (hfile (by simpa using hsafe))
      have hask : Session.Agrees o s s' (CompilerError.IsTrueOn s.disk)
          ((Session.ask fun d => d.exists? (cache.path name)).mapError (.cache (cache.path name))) :=
        .mapError (.ask hexists fun _ _ => nofun)
      refine hask.bind_of (P := fun isInstalled => s.disk.exists? (cache.path name) = .ok isInstalled)
        ?_ ?_
      · intro w isInstalled hw hresult
        rw [Session.mapError_apply, Session.ask_of_at hw] at hresult
        exact mapError_eq_ok_iff.1 hresult
      · intro isInstalled hresult
        cases isInstalled with
        | true => exact .pure _
        | false =>
          refine .fail ?_
          rintro path ⟨⟩
          exact hresult

end Backend

namespace Recompiler

variable {r : Recompiler} {backend : Backend} {i : Invocation}

/-- What a run comes to is never that a toolchain is missing. -/
theorem isTrueOn_outputOf {program : String} {limit : Duration} {ending : Program.Ending}
    {error : CompilerError} {d : Disk} (h : outputOf backend program limit ending = .error error) :
    error.IsTrueOn d := by
  rintro path rfl
  unfold outputOf at h
  split at h
  · cases h
  · cases h
  · cases h
  · split at h
    · split at h <;> cases h
    · cases backend with
      | solc => cases h
      | revive tag =>
        simp only [Backend.failure, Except.error.injEq] at h
        split at h <;> cases h

theorem agrees_runCompiler (hfile : s'.disk.find i.program = s.disk.find i.program)
    (hends : o.RunsAlike) (input : Bytes) :
    Session.Agrees o s s' (CompilerError.IsTrueOn s.disk) (r.runCompiler backend i input) := by
  refine .bind (.log _ _ _ _) fun _ => .bind (.run hfile hends _ _ _) fun ending => ?_
  split
  · exact .pure _
  · next e houtput =>
    split
    · exact .bind (.log _ _ _ _) fun _ => .fail (isTrueOn_outputOf houtput)
    · exact .fail (isTrueOn_outputOf houtput)

theorem agrees_choose (output : CompilerOutput) (declared : Option Target) (tag : Option String) :
    Session.Agrees o s s' (CompilerError.IsTrueOn s.disk) (choose output declared tag) := by
  have hresult : Session.Agrees o s s' (CompilerError.IsTrueOn s.disk)
      (Session.ofExcept ((output.compilation declared tag).mapError .ofResolution)) := by
    refine .ofExcept fun error herror => ?_
    obtain ⟨e, -, rfl⟩ := mapError_eq_error_iff.1 herror
    cases e <;> exact nofun
  unfold choose
  -- each of the two reports may be left out
  split
  · split
    · exact .bind (.log _ _ _ _) fun _ => .bind (.log _ _ _ _) fun _ => hresult
    · exact .bind (.log _ _ _ _) fun _ => hresult
  · split
    · exact .bind (.log _ _ _ _) fun _ => hresult
    · exact hresult

section
variable (hanswers : Answers o r.cache replies) (hsafe : Version.isSafe version.toList = true)
  (hknown : s.memory.path? version = some (r.cache.path version))
include hanswers hsafe hknown

/-- Compiling again asks for nothing but the file that is run. -/
theorem agrees_compileWith (hends : o.RunsAlike)
    (hknown' : s'.memory.path? version = some (r.cache.path version))
    (hfile : Version.isSafe (m.backend.fileName version).toList = true →
      s'.disk.find (r.cache.path (m.backend.fileName version))
        = s.disk.find (r.cache.path (m.backend.fileName version))) :
    Session.Agrees o s s' (CompilerError.IsTrueOn s.disk) (r.compileWith m version) := by
  refine (Cache.agrees_ensure hanswers hsafe hknown hknown').bind_of
    (P := fun compiler => compiler = r.cache.path version) ?_ ?_
  · intro w compiler hw hresult
    obtain ⟨w', hensure, -⟩ := Cache.ensure_of_known hanswers hw hsafe hknown
    rw [hensure] at hresult
    exact (Except.ok.inj hresult).symm
  · rintro _ rfl
    refine .bind (.record _ _) fun _ => ?_
    refine (Backend.agrees_invocation _ hfile).bind_of
      (P := fun i => Version.isSafe (m.backend.fileName version).toList = true ∧
        i.program = r.cache.path (m.backend.fileName version)) ?_ ?_
    · intro w i hw hresult
      exact Backend.program_of_invocation hsafe hresult
    · rintro i ⟨hname, hprogram⟩
      refine .bind (agrees_runCompiler (hprogram ▸ hfile hname) hends _) fun output => ?_
      refine .ofExcept_bind (fun error herror => ?_) fun decoded _ => agrees_choose _ _ _
      obtain ⟨e, -, rfl⟩ := mapError_eq_error_iff.1 herror
      exact nofun

theorem compileWith_of_missing {tag : Option String} (hbackend : m.backend = .revive tag)
    (hname : Version.isSafe (m.backend.fileName version).toList = true)
    (hmissing : s.disk.exists? (r.cache.path (m.backend.fileName version)) = .ok false)
    (hw : w.At s) :
    (r.compileWith m version o w).1
      = .error (.toolchainNotInstalled (r.cache.path (m.backend.fileName version))) := by
  obtain ⟨w₁, hensure, hw₁⟩ := Cache.ensure_of_known hanswers hw hsafe hknown
  have hrecord := @Session.Quiet.record ν CompilerError o "backend" (.shown m.backend.text) s w₁ hw₁
  rw [compileWith, Session.bind_of_ok hensure, Session.bind_of_ok rfl]
  exact Session.fst_bind_of_error
    (Backend.invocation_of_missing (r.cache.path version) hbackend hname hmissing hrecord) _

theorem agrees_recompile (hends : o.RunsAlike)
    (hknown' : s'.memory.path? version = some (r.cache.path version))
    (hfile : Version.isSafe (m.backend.fileName version).toList = true →
      s'.disk.find (r.cache.path (m.backend.fileName version))
        = s.disk.find (r.cache.path (m.backend.fileName version))) :
    Session.Agrees o s s' (CompilerError.IsTrueOn s.disk) (r.recompile m version) :=
  (agrees_compileWith hanswers hsafe hknown hends hknown' hfile).within _ _ _

theorem recompile_of_missing {tag : Option String} (hbackend : m.backend = .revive tag)
    (hname : Version.isSafe (m.backend.fileName version).toList = true)
    (hmissing : s.disk.exists? (r.cache.path (m.backend.fileName version)) = .ok false)
    (hw : w.At s) :
    (r.recompile m version o w).1
      = .error (.toolchainNotInstalled (r.cache.path (m.backend.fileName version))) :=
  compileWith_of_missing hanswers hsafe hknown hbackend hname hmissing ⟨hw.1, hw.2, hw.3⟩

end

end Recompiler

end Provenance
