import Provenance.Proofs.Bytecode.Comparison
import Provenance.Proofs.Compiler.Running
import Provenance.Proofs.Verification.Performance

/-!
# What verifications do to the outside

Whatever the cache holds and however others answer, a verification does at most four things to the outside,
in a fixed order: it downloads the compiler, asks for the deployed code, runs a program, and asks for the
creation code. Each waits for what has to come before it, and after a failure nothing more is done
(`Verifier.verify_in_order`).
-/

namespace Provenance

variable {ν : Type} {o : Outside ν} {w : World ν}

/-- A client that leaves the cache of compilers alone when it is asked for deployed code. -/
def ChainClient.SparesCache (client : ChainClient ν) : Prop :=
  ∀ (chain : Nat) (address : String) (o : Outside ν) (w : World ν),
    (client.deployedCode chain address o w).2.memory = w.memory

/-- The client that asks the endpoints of chains does. -/
theorem Registry.client_sparesCache (r : Registry) : (r.client : ChainClient ν).SparesCache :=
  fun chain address o w => congrArg Cache.Shared.memory (@r.passive_fetchDeployed ν o chain address w).1

namespace Request

/-- What a request in order asks for is what it says. -/
theorem task_eq_ok_iff {r : Request} {task : Task} : r.task = .ok task ↔
    ∃ text, r.metadataText? = some text ∧ isBlank r.address = false ∧ isBlank text = false ∧
      isBlank r.compilerVersion = false ∧ 0 ≤ r.chain ∧ Address.isValid r.address.toList = true ∧
      task = ⟨r.chain.toNat, String.ofList (Hex.marked r.address.toList),
        String.ofList (Version.normalize r.compilerVersion.toList), text⟩ := by
  unfold Request.task check
  cases r.metadataText? with
  | none => simp
  | some text => grind

end Request

namespace Verifier

variable {v : Verifier ν} {r : Request} {task : Task}

/-- The compiler of a task is there: the cache has provided it, and its file stands in its place unless the
cache was wrong about it before. -/
structure Ready (v : Verifier ν) (task : Task) (w : World ν) (provision : List Effect) (w₁ : World ν) :
    Prop where
  provided : ∃ path,
    Cache.Provision v.recompiler.cache task.version w.shared provision (.ok path) w₁.shared ∧
      ((∀ path, w.memory.path? task.version = some path → w.disk.exists? path = .ok true) →
        w₁.disk.exists? path = .ok true)

/-- The chain has told the code of a task, and there is some. -/
structure Fetched (v : Verifier ν) (o : Outside ν) (task : Task) (w : World ν) (provision : List Effect)
    (code : String) : Prop where
  told : ∃ w₁, v.Ready task w provision w₁ ∧
    (v.client.askDeployed task.chain task.address o w₁).1 = .ok code
  some : hasCode code = true

/-- A metadata document was compiled after the code was there. -/
structure Compiled (v : Verifier ν) (o : Outside ν) (task : Task) (w : World ν) (provision : List Effect)
    (code : String) (job : Program.Job) (compilation : Compilation) (w₃ : World ν) : Prop where
  fetched : v.Fetched o task w provision code
  made : ∃ m w₂, Metadata.parse task.metadataText = .ok m ∧
    job.input = Text.encode m.standardJson.toValue.encode ∧
    v.compile m task.version o w₂ = (.ok compilation, w₃)

/-- How a verification goes: what it does to the outside, the first first, and how it ends. -/
inductive Course (v : Verifier ν) (o : Outside ν) (r : Request) (w : World ν) :
    List Effect → Except VerifierError Outcome → Prop
  /-- The request is not in order. -/
  | refused {e} (asked : r.task = .error e) : Course v o r w [] (.error e)
  /-- There is no compiler. -/
  | unprovided {task provision e s} (asked : r.task = .ok task)
    (provided : Cache.Provision v.recompiler.cache task.version w.shared provision (.error e) s) :
    Course v o r w provision (.error (.compiler e))
  /-- The chain does not tell the code. -/
  | untold {task provision w₁ e} (asked : r.task = .ok task) (ready : v.Ready task w provision w₁)
    (told : (v.client.askDeployed task.chain task.address o w₁).1 = .error e) :
    Course v o r w (provision ++ [.deployedCode task.chain task.address]) (.error (.chain e))
  | noCode {task provision w₁ code} (asked : r.task = .ok task) (ready : v.Ready task w provision w₁)
    (told : (v.client.askDeployed task.chain task.address o w₁).1 = .ok code)
    (none : hasCode code = false) :
    Course v o r w (provision ++ [.deployedCode task.chain task.address]) (.error .bytecodeNotFound)
  | unread {task provision code flaw} (asked : r.task = .ok task) (fetched : v.Fetched o task w provision code)
    (read : Metadata.parse task.metadataText = .error flaw) :
    Course v o r w (provision ++ [.deployedCode task.chain task.address])
      (.error (.invalidMetadata flaw.message))
  /-- Compiling fails before a program is run. -/
  | notRun {task provision code m w₂ e} (asked : r.task = .ok task)
    (fetched : v.Fetched o task w provision code) (read : Metadata.parse task.metadataText = .ok m)
    (failed : (v.recompiler.recompile m task.version o w₂).1 = .error e) :
    Course v o r w (provision ++ [.deployedCode task.chain task.address]) (.error (.compiler e))
  /-- Compiling fails, though a program is run. -/
  | uncompiled {task provision code m w₂ job e} (asked : r.task = .ok task)
    (fetched : v.Fetched o task w provision code) (read : Metadata.parse task.metadataText = .ok m)
    (input : job.input = Text.encode m.standardJson.toValue.encode)
    (failed : (v.recompiler.recompile m task.version o w₂).1 = .error e) :
    Course v o r w (provision ++ [.deployedCode task.chain task.address, .run job]) (.error (.compiler e))
  /-- The comparison ends without the creation code. -/
  | compared {task provision code job compilation w₃} (asked : r.task = .ok task)
    (compiled : v.Compiled o task w provision code job compilation w₃) :
    Course v o r w (provision ++ [.deployedCode task.chain task.address, .run job])
      ((Bytecode.compare v.client task.chain task.address code compilation.artifact o w₃).1.map
        (outcomeOf compilation))
  /-- The chain does not tell the creation code. -/
  | creationUntold {task provision code job compilation w₃ w₄ e} (asked : r.task = .ok task)
    (compiled : v.Compiled o task w provision code job compilation w₃)
    (told : (v.client.askCreation task.chain task.address o w₄).1 = .error e) :
    Course v o r w (provision ++
        [.deployedCode task.chain task.address, .run job, .creationCode task.chain task.address])
      (.error (.chain e))
  /-- The creation code decides. -/
  | decided {task provision code job compilation w₃ w₄ input} (asked : r.task = .ok task)
    (compiled : v.Compiled o task w provision code job compilation w₃)
    (told : (v.client.askCreation task.chain task.address o w₄).1 = .ok input) :
    Course v o r w (provision ++
        [.deployedCode task.chain task.address, .run job, .creationCode task.chain task.address])
      ((Bytecode.compare v.client task.chain task.address code compilation.artifact o w₃).1.map
        (outcomeOf compilation))

/-! ## What each step does -/

/-- Fetching code is asking the chain for it, and there has to be some. -/
theorem fetchCode_apply (v : Verifier ν) (task : Task) (o : Outside ν) (w : World ν) :
    ∃ events, v.fetchCode task o w
      = (((v.client.askDeployed task.chain task.address o w).1.mapError VerifierError.chain).bind fun code =>
            if hasCode code then .ok code else .error .bytecodeNotFound,
          (v.client.askDeployed task.chain task.address o w).2.logged events) := by
  unfold fetchCode
  rcases hasked : v.client.askDeployed task.chain task.address o w with ⟨e | code, w'⟩
  · have hfailed : ((v.client.askDeployed task.chain task.address).mapError VerifierError.chain) o w
        = (.error (.chain e), w') := by
      rw [Session.mapError_apply, hasked, mapError_error]
    rw [Session.bind_of_error hfailed]
    exact ⟨[], by rw [World.logged_nil]; rfl⟩
  · have htold : ((v.client.askDeployed task.chain task.address).mapError VerifierError.chain) o w
        = (.ok code, w') := by
      rw [Session.mapError_apply, hasked, mapError_ok]
    rw [Session.bind_of_ok htold]
    simp only [mapError_ok, Except.bind]
    split
    · exact ⟨_, Session.log_bind_apply _ _ _ _ _⟩
    · exact ⟨[], by rw [World.logged_nil]; rfl⟩

/-- Asking for the deployed code is one effect, and leaves what the cache remembers. -/
theorem effects_fetchCode (hclient : v.client.SparesCache) (task : Task) (o : Outside ν) (w : World ν) :
    (v.fetchCode task o w).2.effects = w.effects ++ [.deployedCode task.chain task.address] ∧
      (v.fetchCode task o w).2.memory = w.memory := by
  obtain ⟨events, hfetch⟩ := fetchCode_apply v task o w
  rw [hfetch]
  exact ⟨@Session.effects_delegate ν _ _ o w _ (v.client.deployedCode task.chain task.address), hclient _ _ _ _⟩

theorem fetchCode_eq_ok {code : String} {w' : World ν} (h : v.fetchCode task o w = (.ok code, w')) :
    (v.client.askDeployed task.chain task.address o w).1 = .ok code ∧ hasCode code = true := by
  obtain ⟨events, hfetch⟩ := fetchCode_apply v task o w
  have hresult := congrArg Prod.fst (hfetch.symm.trans h)
  cases hasked : (v.client.askDeployed task.chain task.address o w).1 with
  | error e =>
    rw [hasked] at hresult
    cases hresult
  | ok told =>
    simp only [hasked, mapError_ok, Except.bind] at hresult
    split at hresult
    · next hcode =>
      cases hresult
      exact ⟨rfl, hcode⟩
    · cases hresult

/-- Fetching code fails since the chain does not tell any, or since there is none. -/
theorem fetchCode_eq_error {e : VerifierError} {w' : World ν} (h : v.fetchCode task o w = (.error e, w')) :
    (∃ error, (v.client.askDeployed task.chain task.address o w).1 = .error error ∧ e = .chain error) ∨
      ∃ code, (v.client.askDeployed task.chain task.address o w).1 = .ok code ∧ hasCode code = false ∧
        e = .bytecodeNotFound := by
  obtain ⟨events, hfetch⟩ := fetchCode_apply v task o w
  have hresult := congrArg Prod.fst (hfetch.symm.trans h)
  cases hasked : (v.client.askDeployed task.chain task.address o w).1 with
  | error error =>
    rw [hasked] at hresult
    cases hresult
    exact .inl ⟨error, rfl, rfl⟩
  | ok told =>
    simp only [hasked, mapError_ok, Except.bind] at hresult
    split at hresult
    · cases hresult
    · next hcode =>
      cases hresult
      exact .inr ⟨told, rfl, by simpa using hcode, rfl⟩

/-- Compiling is compiling again, as it is reported. -/
theorem compile_cases (v : Verifier ν) (m : Metadata) (version : String) (o : Outside ν) (w : World ν) :
    ∃ events events', v.compile m version o w
      = ((v.recompiler.recompile m version o (w.logged events)).1.mapError .compiler,
          (v.recompiler.recompile m version o (w.logged events)).2.logged events') := by
  unfold compile
  rw [Session.log_bind_apply]
  generalize [(⟨.info, _, _, _⟩ : Log.Event)] = events
  rcases hrecompile : v.recompiler.recompile m version o (w.logged events) with ⟨e | compilation, w'⟩
  · have hattempt : ((v.recompiler.recompile m version).attempt : Session ν VerifierError _) o
        (w.logged events) = (.ok (.error e), w') := by
      rw [Session.attempt, hrecompile]
    rw [Session.bind_of_ok hattempt]
    exact ⟨events, _, by rw [hrecompile]; exact Session.log_bind_apply _ _ _ _ _⟩
  · have hattempt : ((v.recompiler.recompile m version).attempt : Session ν VerifierError _) o
        (w.logged events) = (.ok (.ok compilation), w') := by
      rw [Session.attempt, hrecompile]
    rw [Session.bind_of_ok hattempt]
    exact ⟨events, [], by rw [hrecompile, World.logged_nil]; rfl⟩

/-- Compiling with a version that the cache knows: it fails before or after a program is run, or a program is
run. -/
theorem effects_compile {path : String} (hsafe : Version.isSafe task.version.toList = true)
    (hknown : w.memory.path? task.version = some path) (m : Metadata) :
    (∃ e w₂, (v.compile m task.version o w).1 = .error (.compiler e) ∧
        (v.recompiler.recompile m task.version o w₂).1 = .error e ∧
        ((v.compile m task.version o w).2.effects = w.effects ∨
          ∃ job : Program.Job, job.input = Text.encode m.standardJson.toValue.encode ∧
            (v.compile m task.version o w).2.effects = w.effects ++ [.run job])) ∨
      ∃ compilation, (v.compile m task.version o w).1 = .ok compilation ∧
        ∃ job : Program.Job, job.input = Text.encode m.standardJson.toValue.encode ∧
          (v.compile m task.version o w).2.effects = w.effects ++ [.run job] := by
  obtain ⟨events, events', hcompile⟩ := compile_cases v m task.version o w
  have hruns := @Recompiler.runsOnce_recompile ν o (w.logged events) v.recompiler m task.version path hsafe
    hknown
  unfold Session.RunsOnce at hruns
  rw [World.effects_logged] at hruns
  rw [hcompile]
  cases hresult : (v.recompiler.recompile m task.version o (w.logged events)).1 with
  | error e =>
    exact .inl ⟨e, w.logged events, rfl, hresult, hruns.imp And.left id⟩
  | ok compilation =>
    rw [hresult] at hruns
    refine .inr ⟨compilation, rfl, ?_⟩
    rcases hruns with ⟨-, e, he⟩ | hrun
    · cases he
    · exact hrun

/-! ## All steps -/

section
variable {w₀ w₁ w₂ w₃ : World ν} {path code : String} {m : Metadata} {compilation : Compilation}
  (hclient : v.client.SparesCache) (hshared : w₀.shared = w.shared)
  (hensure : v.recompiler.cache.ensure task.version o w₀ = (.ok path, w₁))

include hshared hensure in
/-- What is known once the compiler is there. -/
theorem ready_of_ensure :
    ∃ provision, w₁.effects = w₀.effects ++ provision ∧ v.Ready task w provision w₁ ∧
      Version.isSafe task.version.toList = true ∧ w₁.memory.path? task.version = some path := by
  obtain ⟨provision, heffects, hprovision, -⟩ :=
    Cache.provision_ensure v.recompiler.cache task.version o w₀
  rw [hshared, hensure] at hprovision
  rw [hensure] at heffects
  exact ⟨provision, heffects, ⟨path, hprovision, hprovision.present⟩, hprovision.known⟩

variable (hfetch : v.fetchCode task o w₁ = (.ok code, w₂))
include hclient hshared hensure hfetch

/-- What is known once there is code. -/
theorem fetched_of_fetchCode :
    ∃ provision, w₂.effects = w₀.effects ++ (provision ++ [.deployedCode task.chain task.address]) ∧
      v.Fetched o task w provision code ∧ Version.isSafe task.version.toList = true ∧
      w₂.memory.path? task.version = some path := by
  obtain ⟨provision, heffects, hready, hsafe, hknown⟩ := ready_of_ensure hshared hensure
  obtain ⟨heffects₂, hmemory⟩ := effects_fetchCode hclient task o w₁
  rw [hfetch] at heffects₂ hmemory
  obtain ⟨htold, hcode⟩ := fetchCode_eq_ok hfetch
  refine ⟨provision, ?_, ⟨⟨w₁, hready, htold⟩, hcode⟩, hsafe, by rw [hmemory, hknown]⟩
  rw [heffects₂, heffects, List.append_assoc]

/-- What is known once the metadata document is compiled. -/
theorem compiled_of_compile (hread : Metadata.parse task.metadataText = .ok m)
    (hcompile : v.compile m task.version o w₂ = (.ok compilation, w₃)) :
    ∃ provision job, w₃.effects
        = w₀.effects ++ (provision ++ [.deployedCode task.chain task.address, .run job]) ∧
      v.Compiled o task w provision code job compilation w₃ := by
  obtain ⟨provision, heffects, hfetched, hsafe, hknown⟩ :=
    fetched_of_fetchCode hclient hshared hensure hfetch
  -- the cache knows the version by now, so it is not ensured by another download
  rcases effects_compile (v := v) (o := o) hsafe hknown m with
    ⟨e, w', herror, -⟩ | ⟨-, -, job, hinput, hrun⟩
  · rw [hcompile] at herror
    cases herror
  · rw [hcompile] at hrun
    refine ⟨provision, job, ?_, hfetched, m, w₂, hread, hinput, hcompile⟩
    rw [hrun, heffects]
    simp

end

/-- What is compiled is compared, and for that the creation code is asked for or not. -/
theorem course_of_compare {provision before : List Effect} {code : String} {job : Program.Job}
    {compilation : Compilation} {w₃ : World ν} (asked : r.task = .ok task)
    (hcompiled : v.Compiled o task w provision code job compilation w₃)
    (heffects : w₃.effects
      = before ++ (provision ++ [.deployedCode task.chain task.address, .run job])) :
    ∃ trace, (Bytecode.compare v.client task.chain task.address code compilation.artifact o w₃).2.effects
        = before ++ trace ∧
      Course v o r w trace
        ((Bytecode.compare v.client task.chain task.address code compilation.artifact o w₃).1.map
          (outcomeOf compilation)) := by
  rcases @Bytecode.effects_compare ν o w₃ v.client task.chain task.address code compilation.artifact with
    ⟨hun, hasks⟩ | ⟨-, hnone⟩
  · refine ⟨provision ++
      [.deployedCode task.chain task.address, .run job, .creationCode task.chain task.address], ?_, ?_⟩
    · rw [hasks, heffects]
      simp
    · have hcreation := @Bytecode.compareCreation_fst ν o
        (w₃.logged ((Bytecode.scan (Bytecode.normalize compilation.artifact.deployed)
          (Bytecode.normalize code)).1.map Bytecode.Resolved.event))
        v.client task.chain task.address (Bytecode.normalize compilation.artifact.creation)
      rw [← Bytecode.compare_of_undecided hun] at hcreation
      -- the answer of the chain is that to the delegated question
      cases htold : Bytecode.told v.client task.chain task.address o
        (w₃.logged ((Bytecode.scan (Bytecode.normalize compilation.artifact.deployed)
          (Bytecode.normalize code)).1.map Bytecode.Resolved.event)) with
      | error e =>
        rw [htold] at hcreation
        rw [hcreation]
        exact .creationUntold asked hcompiled htold
      | ok input => exact .decided asked hcompiled htold
  · exact ⟨_, hnone.trans heffects, .compared asked hcompiled⟩

/-- A task that is performed takes its course. -/
theorem course_of_performance {w₀ : World ν} {run : Except VerifierError Outcome × World ν}
    (hclient : v.client.SparesCache) (asked : r.task = .ok task) (hshared : w₀.shared = w.shared)
    (h : Performance v o task w₀ run) :
    ∃ trace, run.2.effects = w₀.effects ++ trace ∧ Course v o r w trace run.1 := by
  cases h with
  | unprovided provided =>
    obtain ⟨provision, heffects, hprovision, -⟩ :=
      Cache.provision_ensure v.recompiler.cache task.version o w₀
    rw [hshared, provided] at hprovision
    rw [provided] at heffects
    exact ⟨provision, heffects, .unprovided asked hprovision⟩
  | @unfetched path w₁ e w₂ provided fetched =>
    obtain ⟨provision, heffects, hready, -⟩ := ready_of_ensure hshared provided
    obtain ⟨heffects₂, -⟩ := effects_fetchCode hclient task o w₁
    rw [fetched] at heffects₂
    refine ⟨provision ++ [.deployedCode task.chain task.address], ?_, ?_⟩
    · rw [heffects₂, heffects, List.append_assoc]
    · rcases fetchCode_eq_error fetched with ⟨error, htold, rfl⟩ | ⟨code, htold, hcode, rfl⟩
      · exact .untold asked hready htold
      · exact .noCode asked hready htold hcode
  | unread provided fetched read =>
    obtain ⟨provision, heffects, hfetched, -⟩ := fetched_of_fetchCode hclient hshared provided fetched
    exact ⟨_, heffects, .unread asked hfetched read⟩
  | @uncompiled _ _ _ w₂ m e w₃ provided fetched read compiled =>
    obtain ⟨provision, heffects, hfetched, hsafe, hknown⟩ :=
      fetched_of_fetchCode hclient hshared provided fetched
    rcases effects_compile (v := v) (o := o) hsafe hknown m with
      ⟨error, w', herror, hrecompile, heffects₃⟩ | ⟨compilation, hcompile, -⟩
    · rw [compiled] at herror heffects₃
      obtain rfl : e = .compiler error := Except.error.inj herror
      rcases heffects₃ with hnone | ⟨job, hinput, hrun⟩
      · exact ⟨_, hnone.trans heffects, .notRun asked hfetched read hrecompile⟩
      · refine ⟨_, ?_, .uncompiled asked hfetched read hinput hrecompile⟩
        rw [hrun, heffects]
        simp
    · rw [compiled] at hcompile
      cases hcompile
  | uncompared provided fetched read compiled compared
  | finished provided fetched read compiled compared =>
    obtain ⟨provision, job, heffects, hcompiled⟩ :=
      compiled_of_compile hclient hshared provided fetched read compiled
    have hcourse := course_of_compare asked hcompiled heffects
    rw [compared] at hcourse
    exact hcourse

/-- Every verification takes its course. -/
theorem course_verify (hclient : v.client.SparesCache) (r : Request) (o : Outside ν) (w : World ν) :
    ∃ trace, (v.verify r o w).2.effects = w.effects ++ trace ∧ Course v o r w trace (v.verify r o w).1 := by
  cases htask : r.task with
  | error e =>
    rw [verify_of_refused htask]
    exact ⟨[], (List.append_nil _).symm, .refused htask⟩
  | ok task =>
    obtain ⟨span, hverify⟩ := @verify_of_task ν v task r htask o w
    -- the open span is all that the world of the task differs by
    have hperformance := performance v o task { w with spans := span :: w.spans }
    have hshared : World.shared { w with spans := span :: w.spans } = w.shared := rfl
    have hcourse := course_of_performance hclient htask hshared hperformance
    rw [hverify]
    exact hcourse

/-! ## The order -/

namespace Course

variable {trace : List Effect} {result : Except VerifierError Outcome}

/-- What is done begins with the provision of the compiler. -/
theorem provision (h : Course v o r w trace result) :
    trace = [] ∨ ∃ task provision result s job rest, r.task = .ok task ∧ trace = provision ++ rest ∧
      Cache.Provision v.recompiler.cache task.version w.shared provision result s ∧
      rest.Sublist [.deployedCode task.chain task.address, .run job,
        .creationCode task.chain task.address] := by
  obtain ⟨anyJob⟩ : Nonempty Program.Job := ⟨⟨"", [], [], [], .ofSeconds 0⟩⟩
  cases h with
  | refused => exact .inl rfl
  | unprovided asked provided =>
    exact .inr ⟨_, _, _, _, anyJob, [], asked, (List.append_nil _).symm, provided, by simp⟩
  | untold asked ready | noCode asked ready =>
    obtain ⟨path, provided, -⟩ := ready.provided
    exact .inr ⟨_, _, _, _, anyJob, _, asked, rfl, provided, by simp⟩
  | unread asked fetched | notRun asked fetched =>
    obtain ⟨w₁, ready, -⟩ := fetched.told
    obtain ⟨path, provided, -⟩ := ready.provided
    exact .inr ⟨_, _, _, _, anyJob, _, asked, rfl, provided, by simp⟩
  | @uncompiled _ _ _ _ _ job _ asked fetched =>
    obtain ⟨w₁, ready, -⟩ := fetched.told
    obtain ⟨path, provided, -⟩ := ready.provided
    exact .inr ⟨_, _, _, _, job, _, asked, rfl, provided, by simp⟩
  | @compared _ _ _ job _ _ asked compiled | @creationUntold _ _ _ job _ _ _ _ asked compiled
  | @decided _ _ _ job _ _ _ _ asked compiled =>
    obtain ⟨w₁, ready, -⟩ := compiled.fetched.told
    obtain ⟨path, provided, -⟩ := ready.provided
    exact .inr ⟨_, _, _, _, job, _, asked, rfl, provided, by simp⟩

/-- What is done is done in order, for what the request says. -/
theorem sublist (h : Course v o r w trace result) :
    ∃ job, trace.Sublist [
      .download (String.ofList (Version.normalize r.compilerVersion.toList)),
      .deployedCode r.chain.toNat (String.ofList (Hex.marked r.address.toList)),
      .run job,
      .creationCode r.chain.toNat (String.ofList (Hex.marked r.address.toList))] := by
  rcases h.provision with rfl | ⟨task, provision, result, s, job, rest, asked, rfl, provided, hrest⟩
  · exact ⟨⟨"", [], [], [], .ofSeconds 0⟩, List.nil_sublist _⟩
  · obtain ⟨text, -, -, -, -, -, -, rfl⟩ := Request.task_eq_ok_iff.1 asked
    exact ⟨job, provided.sublist.append hrest⟩

/-- The compiler is downloaded only if it is neither known nor there. -/
theorem missing (h : Course v o r w trace result) {version : String} (hmem : .download version ∈ trace) :
    w.memory.path? version = none ∧ w.disk.exists? (v.recompiler.cache.path version) = .ok false := by
  rcases h.provision with rfl | ⟨task, provision, result, s, job, rest, asked, rfl, provided, hrest⟩
  · cases hmem
  · have hdownload : Effect.download version ∈ provision := by
      rcases List.mem_append.1 hmem with h | h
      · exact h
      · simpa using hrest.subset h
    obtain rfl : version = task.version := by simpa using provided.sublist.subset hdownload
    exact provided.missing hdownload

end Course

end Verifier

end Provenance
