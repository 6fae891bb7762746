import Provenance.Proofs.Cache.Failures
import Provenance.Proofs.Compiler.Confinement
import Provenance.Proofs.Compiler.Resolution
import Provenance.Proofs.Reports

/-!
# Only flawless runs count

A compilation counts if the compiler was there, ran to its end in time and without complaint, took all of its
input, and wrote what a contract can be chosen from (`Recompiler.recompile_flawless`). What an error means
is decided by where it came up: before the compiler was started it is the asker's or says that the compiler is not
to be had, from there on it is a failed compilation.
-/

namespace Provenance

variable {ν : Type} {o : Outside ν} {w w' : World ν}

/-! ## What is run -/

namespace Backend

variable {cache : Cache} {compiler : String} {tag : Option String}

/-- A toolchain is run if its tag is safe and it is found. -/
theorem invocation_revive_apply (cache : Cache) (compiler : String) (tag : Option String) (o : Outside ν)
    (w : World ν) :
    (revive tag).invocation cache compiler o w
      = if !Version.isSafe (tag.getD Release.defaultBinary).toList then
          (.error (.invalidVersion (tag.getD Release.defaultBinary)), w)
        else
          match (Session.ask fun d => d.exists? (cache.path (tag.getD Release.defaultBinary)) :
            Session ν IoFault Bool) o w with
          | (.ok true, w') =>
            (.ok ⟨cache.path (tag.getD Release.defaultBinary), ["--solc", compiler, "--standard-json"]⟩, w')
          | (.ok false, w') =>
            (.error (.toolchainNotInstalled (cache.path (tag.getD Release.defaultBinary))), w')
          | (.error fault, w') =>
            (.error (.cache (cache.path (tag.getD Release.defaultBinary)) fault), w') := by
  rw [invocation]
  dsimp only
  split
  · rfl
  · rw [Session.bind_apply, Session.mapError_apply]
    rcases (Session.ask fun d => d.exists? (cache.path (tag.getD Release.defaultBinary)) :
      Session ν IoFault Bool) o w with ⟨fault | isInstalled, w'⟩
    · rfl
    · cases isInstalled <;> rfl

/-- If there is nothing to be run, the tag was wrong or the toolchain is not to be had. -/
theorem isEarly_of_invocation {backend : Backend} {e : CompilerError}
    (h : backend.invocation cache compiler o w = (.error e, w')) : e.IsEarly := by
  cases backend with
  | solc => cases h
  | revive tag =>
    rw [invocation_revive_apply] at h
    split at h
    · cases h
      exact .inl rfl
    · split at h <;> cases h <;> exact .inr rfl

end Backend

/-- What is taken out of an output is what it has for the target that resolves. -/
theorem CompilerOutput.compilation_eq_ok_iff {output : CompilerOutput} {declared : Option Target}
    {tag : Option String} {c : Compilation} : output.compilation declared tag = .ok c ↔
      output.resolve declared = .ok c.target ∧ output.artifact? c.target = some c.artifact ∧
        c.reviveVersion = output.reviveVersion.or tag := by
  obtain ⟨target, artifact, reviveVersion⟩ := c
  unfold compilation
  cases output.resolve declared with
  | error e => simp
  | ok t =>
    have ht : (Except.ok t : Except ResolutionError Target) = .ok target ↔ t = target := by simp
    rw [ht]
    dsimp only
    cases hartifact : output.artifact? t with
    | none =>
      constructor
      · intro h
        cases h
      · rintro ⟨rfl, hfound, -⟩
        rw [hartifact] at hfound
        cases hfound
    | some found =>
      constructor
      · intro h
        cases h
        exact ⟨rfl, hartifact, rfl⟩
      · rintro ⟨rfl, hfound, rfl⟩
        rw [hartifact, Option.some.injEq] at hfound
        rw [hfound]

namespace Recompiler

variable {r : Recompiler} {m : Metadata} {version program : String} {ending : Program.Ending}

/-- A program is run for a document in a world: the compiler has been made sure of, and it is run itself, or
the toolchain around it, which is found under its tag. -/
inductive Runs (r : Recompiler) (o : Outside ν) (m : Metadata) (version : String) (w : World ν) :
    String → Program.Ending → Prop
  | alone {compiler w₁ ending w₂} (backend : m.backend = .solc)
    (ensured : r.cache.ensure version o w = (.ok compiler, w₁))
    (ran : (Session.run compiler ["--standard-json"] (inputFor m) r.limit : Session ν CompilerError _) o w₁
      = (.ok ending, w₂)) :
    Runs r o m version w compiler ending
  | around {tag compiler w₁ w₂ ending w₃} (backend : m.backend = .revive tag)
    (ensured : r.cache.ensure version o w = (.ok compiler, w₁))
    (named : Version.isSafe (tag.getD Release.defaultBinary).toList = true)
    (installed : (Session.ask fun d => d.exists? (r.cache.path (tag.getD Release.defaultBinary)) :
      Session ν IoFault Bool) o w₁ = (.ok true, w₂))
    (ran : (Session.run (r.cache.path (tag.getD Release.defaultBinary))
      ["--solc", compiler, "--standard-json"] (inputFor m) r.limit : Session ν CompilerError _) o w₂
        = (.ok ending, w₃)) :
    Runs r o m version w (r.cache.path (tag.getD Release.defaultBinary)) ending

/-- A program is run if there is one to be invoked. -/
theorem runs_iff : Runs r o m version w program ending ↔
    ∃ compiler w₁ i w₂ w₃, r.cache.ensure version o w = (.ok compiler, w₁) ∧
      m.backend.invocation r.cache compiler o w₁ = (.ok i, w₂) ∧
      (Session.run i.program i.arguments (inputFor m) r.limit : Session ν CompilerError _) o w₂
        = (.ok ending, w₃) ∧ i.program = program := by
  constructor
  · intro h
    cases h with
    | @alone _ w₁ _ w₂ backend ensured ran =>
      exact ⟨program, w₁, ⟨program, ["--standard-json"]⟩, w₁, w₂, ensured, by rw [backend]; rfl, ran, rfl⟩
    | @around tag compiler w₁ w₂ _ w₃ backend ensured named installed ran =>
      have hinvocation : m.backend.invocation r.cache compiler o w₁
          = (.ok ⟨r.cache.path (tag.getD Release.defaultBinary), ["--solc", compiler, "--standard-json"]⟩,
            w₂) := by
        rw [backend, Backend.invocation_revive_apply, named, installed]
        rfl
      exact ⟨compiler, w₁, _, w₂, w₃, ensured, hinvocation, ran, rfl⟩
  · rintro ⟨compiler, w₁, i, w₂, w₃, ensured, invoked, ran, rfl⟩
    cases hbackend : m.backend with
    | solc =>
      rw [hbackend] at invoked
      cases invoked
      exact .alone hbackend ensured ran
    | revive tag =>
      rw [hbackend, Backend.invocation_revive_apply] at invoked
      split at invoked
      · cases invoked
      · next hsafe =>
        split at invoked
        · next w₂' installed =>
          cases invoked
          exact .around hbackend ensured (by simpa using hsafe) installed ran
        · cases invoked
        · cases invoked

/-! ## What comes of it -/

/-- A compilation comes to a run, and then to what that comes to, or it fails before. -/
theorem runs_or_isEarly (r : Recompiler) (o : Outside ν) (m : Metadata) (version : String) (w : World ν) :
    (∃ program ending, Runs r o m version w program ending ∧
        (r.recompile m version o w).1 = (outputOf m.backend program r.limit ending).bind (compilationOf m)) ∨
      (∀ program ending, ¬ Runs r o m version w program ending) ∧
        ∃ e, (r.recompile m version o w).1 = .error e ∧ e.IsEarly := by
  have hcourse := course r o m version w
  -- the steps are taken in worlds that differ from those without reports in the reports only
  have hensure := r.cache.blind_ensure version (o := o)
  have hinvocation := fun compiler => m.backend.blind_invocation r.cache compiler (o := o)
  have hruns : ∀ {w₀ path w₁ w₂ i w₃ w₄ ending w₅}, w.Reported w₀ →
      r.cache.ensure version o w₀ = (.ok path, w₁) → w₁.Reported w₂ →
      m.backend.invocation r.cache path o w₂ = (.ok i, w₃) → w₃.Reported w₄ →
      (Session.run i.program i.arguments (inputFor m) r.limit : Session ν CompilerError _) o w₄
        = (.ok ending, w₅) → Runs r o m version w i.program ending := by
    intro w₀ path w₁ w₂ i w₃ w₄ ending w₅ began provided recorded invoked announced ran
    obtain ⟨v₁, provided', h₁⟩ := hensure.transport began.symm provided
    obtain ⟨v₂, invoked', h₂⟩ := (hinvocation path).transport (recorded.symm.trans h₁) invoked
    obtain ⟨v₃, ran', -⟩ := (Session.Blind.run _ _ _ _).transport (announced.symm.trans h₂) ran
    exact runs_iff.2 ⟨path, v₁, i, v₂, v₃, provided', invoked', ran', rfl⟩
  generalize r.recompile m version o w = result at hcourse ⊢
  cases hcourse with
  | @unprovided w₀ e w₁ w' began provided ended =>
    obtain ⟨v₁, provided', -⟩ := hensure.transport began.symm provided
    refine .inr ⟨fun program ending h => ?_, e, rfl, Cache.isEarly_of_ensure (congrArg Prod.fst provided)⟩
    obtain ⟨compiler, u₁, i, u₂, u₃, ensured, -⟩ := runs_iff.1 h
    rw [provided'] at ensured
    cases ensured
  | @uninvoked w₀ path w₁ w₂ e w₃ w' began provided recorded invoked ended =>
    obtain ⟨v₁, provided', h₁⟩ := hensure.transport began.symm provided
    obtain ⟨v₂, invoked', -⟩ := (hinvocation path).transport (recorded.symm.trans h₁) invoked
    refine .inr ⟨fun program ending h => ?_, e, rfl, Backend.isEarly_of_invocation invoked⟩
    obtain ⟨compiler, u₁, i, u₂, u₃, ensured, invocation, -⟩ := runs_iff.1 h
    rw [provided'] at ensured
    cases ensured
    rw [invoked'] at invocation
    cases invocation
  | failed began provided recorded invoked announced ran flawed ended =>
    exact .inl ⟨_, _, hruns began provided recorded invoked announced ran, by rw [flawed]; rfl⟩
  | finished began provided recorded invoked announced ran collected ended =>
    exact .inl ⟨_, _, hruns began provided recorded invoked announced ran, by rw [collected]; rfl⟩

/-- There is one run at most. -/
theorem Runs.unique {program' : String} {ending' : Program.Ending} (h : Runs r o m version w program ending)
    (h' : Runs r o m version w program' ending') : program = program' ∧ ending = ending' := by
  obtain ⟨compiler, w₁, i, w₂, w₃, ensured, invoked, ran, rfl⟩ := runs_iff.1 h
  obtain ⟨compiler', w₁', i', w₂', w₃', ensured', invoked', ran', rfl⟩ := runs_iff.1 h'
  cases ensured.symm.trans ensured'
  cases invoked.symm.trans invoked'
  cases ran.symm.trans ran'
  exact ⟨rfl, rfl⟩

/-- What comes of a run. -/
theorem Runs.fst_recompile (h : Runs r o m version w program ending) :
    (r.recompile m version o w).1
      = (outputOf m.backend program r.limit ending).bind (compilationOf m) := by
  rcases runs_or_isEarly r o m version w with ⟨program', ending', h', hresult⟩ | ⟨hnone, -⟩
  · obtain ⟨rfl, rfl⟩ := h.unique h'
    exact hresult
  · exact absurd h (hnone program ending)

/-! ## What errors mean -/

theorem kind_of_outputOf {backend : Backend} {limit : Duration} {e : CompilerError}
    (h : outputOf backend program limit ending = .error e) : e.kind = .compileFailure := by
  unfold outputOf at h
  split at h
  · cases h
    rfl
  · cases h
    rfl
  · cases h
    rfl
  · split at h
    · split at h <;> cases h
      rfl
    · cases h
      cases backend with
      | solc => rfl
      | revive tag =>
        unfold Backend.failure
        dsimp only
        split <;> rfl

theorem kind_of_compilationOf {output : Bytes} {e : CompilerError} (h : compilationOf m output = .error e) :
    e.kind = .compileFailure := by
  unfold compilationOf at h
  rcases bind_eq_error_iff.1 h with hdecoded | ⟨decoded, -, hchosen⟩
  · obtain ⟨fault, -, rfl⟩ := mapError_eq_error_iff.1 hdecoded
    rfl
  · obtain ⟨cause, -, rfl⟩ := mapError_eq_error_iff.1 hchosen
    cases cause <;> rfl

/-- Of an ending comes output only if it is a good one. -/
theorem outputOf_eq_ok_iff {backend : Backend} {limit : Duration} {output : Bytes} :
    outputOf backend program limit ending = .ok output ↔
      ∃ errors, ending = .ended (.code 0) output errors none := by
  constructor
  · intro h
    unfold outputOf at h
    split at h
    · cases h
    · cases h
    · cases h
    · next status written errors inputFault =>
      split at h
      · next hstatus =>
        split at h
        · cases h
        · cases h
          obtain rfl : status = .code 0 := by simpa [Program.ExitStatus.isSuccess] using hstatus
          exact ⟨errors, rfl⟩
      · cases h
  · rintro ⟨errors, rfl⟩
    rfl

theorem compilationOf_eq_ok_iff {output : Bytes} {compilation : Compilation} :
    compilationOf m output = .ok compilation ↔
      ∃ decoded, Json.decodeBytes CompilerOutput.decoder output = .ok decoded ∧
        decoded.compilation m.target? m.backend.tag? = .ok compilation := by
  unfold compilationOf
  rw [bind_eq_ok_iff]
  simp only [mapError_eq_ok_iff]

/-- What a target resolves in was read, and so it has the target. -/
theorem exists_artifact_of_decodeBytes {output : Bytes} {decoded : CompilerOutput} {target : Target}
    (hread : Json.decodeBytes CompilerOutput.decoder output = .ok decoded)
    (hresolved : decoded.resolve m.target? = .ok target) :
    ∃ artifact, decoded.artifact? target = some artifact :=
  (CompilerOutput.isSorted_of_decoder (Json.decoder_of_decodeBytes hread)).exists_artifact hresolved

/-! ## Flawless runs -/

/-- A run without a flaw: the program ended in time, its output was collected, it stopped without complaint
after all of its input was taken, and a target resolves in what it wrote. -/
structure IsFlawless (r : Recompiler) (o : Outside ν) (m : Metadata) (version : String) (w : World ν)
    (decoded : CompilerOutput) (target : Target) : Prop where
  ran : ∃ program output errors, Runs r o m version w program (.ended (.code 0) output errors none) ∧
    Json.decodeBytes CompilerOutput.decoder output = .ok decoded
  resolved : decoded.resolve m.target? = .ok target

/-- What a compilation comes to, by how its run went. -/
structure Judges (r : Recompiler) (o : Outside ν) (m : Metadata) (version : String) (w : World ν)
    (result : Except CompilerError Compilation) : Prop where
  /-- It counts exactly if the run was flawless. -/
  counts : (∃ c, result = .ok c) ↔ ∃ decoded target, IsFlawless r o m version w decoded target
  /-- It is what the output has for the target that resolves. -/
  content : ∀ c, result = .ok c → ∃ decoded, IsFlawless r o m version w decoded c.target ∧
    decoded.artifact? c.target = some c.artifact ∧ c.reviveVersion = decoded.reviveVersion.or m.backend.tag?
  /-- An error before the compiler is started is the asker's, or the compiler is not to be had. -/
  before : (∀ program ending, ¬ Runs r o m version w program ending) → ∀ e, result = .error e →
    e.kind = .inputValidation ∨ e.kind = .compilerUnavailable
  /-- From there on it is a failed compilation. -/
  after : ∀ program ending, Runs r o m version w program ending → ∀ e, result = .error e →
    e.kind = .compileFailure
  /-- A compiler that complains is quoted with its status, whatever it wrote and has taken. -/
  complained : ∀ program status output errors inputFault, m.backend = .solc →
    Runs r o m version w program (.ended status output errors inputFault) → status ≠ .code 0 →
    result = .error (.exitStatus program status.text)
  /-- A toolchain that complains is quoted with what it said, or with its status if it said nothing. -/
  said : ∀ program status output errors inputFault tag, m.backend = .revive tag →
    Runs r o m version w program (.ended status output errors inputFault) → status ≠ .code 0 →
    (Text.trim (Text.lossyText errors).toList ≠ [] →
      result = .error (.toolchain (String.ofList (Text.trim (Text.lossyText errors).toList)))) ∧
    (Text.trim (Text.lossyText errors).toList = [] →
      result = .error (.toolchain (program ++ " exited with " ++ status.text)))

/-- A run that did not end well is a failure of its backend. -/
theorem Runs.fst_recompile_of_complaint {status : Program.ExitStatus} {output errors : Bytes}
    {inputFault : Option IoFault} (h : Runs r o m version w program (.ended status output errors inputFault))
    (hstatus : status ≠ .code 0) :
    (r.recompile m version o w).1 = .error (m.backend.failure program status errors) := by
  have hcomplaint : status.isSuccess = false := decide_eq_false hstatus
  rw [h.fst_recompile]
  simp only [outputOf, hcomplaint]
  rfl

/-- Only flawless runs count, and errors mean what the step means at which they came up. -/
theorem recompile_flawless (r : Recompiler) (o : Outside ν) (m : Metadata) (version : String) (w : World ν) :
    Judges r o m version w (r.recompile m version o w).1 := by
  have hcontent : ∀ c, (r.recompile m version o w).1 = .ok c →
      ∃ decoded, IsFlawless r o m version w decoded c.target ∧
        decoded.artifact? c.target = some c.artifact ∧
        c.reviveVersion = decoded.reviveVersion.or m.backend.tag? := by
    intro c hc
    rcases runs_or_isEarly r o m version w with ⟨program, ending, hruns, hresult⟩ | ⟨-, e, hfailed, -⟩
    · rw [hresult] at hc
      obtain ⟨output, houtput, hcompilation⟩ := bind_eq_ok_iff.1 hc
      obtain ⟨errors, rfl⟩ := outputOf_eq_ok_iff.1 houtput
      obtain ⟨decoded, hread, hchosen⟩ := compilationOf_eq_ok_iff.1 hcompilation
      obtain ⟨hresolved, hartifact, hversion⟩ := CompilerOutput.compilation_eq_ok_iff.1 hchosen
      exact ⟨decoded, ⟨⟨program, output, errors, hruns, hread⟩, hresolved⟩, hartifact, hversion⟩
    · rw [hfailed] at hc
      cases hc
  refine ⟨⟨?_, ?_⟩, hcontent, ?_, ?_, ?_, ?_⟩
  · rintro ⟨c, hc⟩
    obtain ⟨decoded, hflawless, -⟩ := hcontent c hc
    exact ⟨decoded, c.target, hflawless⟩
  · rintro ⟨decoded, target, ⟨program, output, errors, hruns, hread⟩, hresolved⟩
    obtain ⟨artifact, hartifact⟩ := exists_artifact_of_decodeBytes hread hresolved
    refine ⟨⟨target, artifact, decoded.reviveVersion.or m.backend.tag?⟩, ?_⟩
    rw [hruns.fst_recompile, outputOf_eq_ok_iff.2 ⟨errors, rfl⟩]
    exact compilationOf_eq_ok_iff.2
      ⟨decoded, hread, CompilerOutput.compilation_eq_ok_iff.2 ⟨hresolved, hartifact, rfl⟩⟩
  · intro hnone e he
    rcases runs_or_isEarly r o m version w with ⟨program, ending, hruns, -⟩ | ⟨-, e', hfailed, hearly⟩
    · exact absurd hruns (hnone program ending)
    · cases hfailed.symm.trans he
      exact hearly
  · intro program ending hruns e he
    rw [hruns.fst_recompile] at he
    rcases bind_eq_error_iff.1 he with houtput | ⟨output, -, hcompilation⟩
    · exact kind_of_outputOf houtput
    · exact kind_of_compilationOf hcompilation
  · intro program status output errors inputFault hbackend hruns hstatus
    rw [hruns.fst_recompile_of_complaint hstatus, hbackend]
    rfl
  · intro program status output errors inputFault tag hbackend hruns hstatus
    rw [hruns.fst_recompile_of_complaint hstatus, hbackend, Backend.failure]
    generalize Text.trim (Text.lossyText errors).toList = text
    have hempty : (String.ofList text).isEmpty = true ↔ text = [] := by
      rw [String.isEmpty_iff, ← String.toList_inj, String.toList_ofList]
      rfl
    constructor
    · intro htext
      rw [if_neg fun h => htext (hempty.1 h)]
    · intro htext
      rw [if_pos (hempty.2 htext)]

/-- Every program writes one contract and stops with a status. -/
private def stopping (status : Program.ExitStatus) : Outside Unit :=
  let output := "\x7b\"contracts\":\x7b\"a\":\x7b\"A\":\x7b\"evm\":\x7b\"deployedBytecode\":" ++
    "\x7b\"object\":\"6001\"\x7d\x7d\x7d\x7d\x7d\x7d"
  { Outside.idle with run := fun _ outside => (.ended status (Text.encode output) [] none, outside) }

-- the same output counts from a compiler that succeeds and from no other
example : [.code 0, .code 1, .signal 9].map (fun status =>
    ((Recompiler.mk ⟨"/c", ""⟩ (.ofSeconds 1)).recompile ⟨"Solidity", [], .absent, none⟩ "v0.8.26"
      (stopping status) (.start () ⟨[(["c"], .directory), (["c", "v0.8.26"], .file Disk.programMode [1])],
        []⟩)).1.toOption.map Compilation.target) = [some ⟨"a", "A"⟩, none, none] := by
  decide +kernel

end Recompiler

end Provenance
