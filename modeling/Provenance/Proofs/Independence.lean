import Provenance.Proofs.Compiler.Recompilation
import Provenance.Verification

/-!
# Requests one after another

A verifier is asked one request after another. When the chains, the downloads and the programs always
answer alike, a request is answered as if it were the only one, but for one case: it is turned down alone
since its toolchain is not installed, and an earlier request has put a compiler under the toolchain's tag
(`Verifier.verify_after_ne_iff`).
-/

namespace Provenance

open Cache (Shared Stock kept)

variable {ν : Type} {o : Outside ν} {w w' : World ν} {s s' : Shared} {d : Disk}
  {replies : Cache.Replies}

/-- An error says that a toolchain is not installed only where nothing stands in its place. -/
def VerifierError.IsTrueOn (d : Disk) (e : VerifierError) : Prop :=
  ∀ path, e = .compiler (.toolchainNotInstalled path) → d.exists? path = .ok false

namespace Request

/-- What a request asks for, if it is in order. -/
def task (r : Request) : Except VerifierError Task :=
  match r.metadataText? with
  | none => .error (.invalidRequest "metadata must be a JSON document")
  | some metadataText => r.check metadataText

/-- The version of the compiler that a request asks for, if it is in order. -/
def version? (r : Request) : Option String := r.task.toOption.map Task.version

/-- What is wrong with a request is not that a toolchain is missing. -/
theorem isTrueOn_of_task {r : Request} {e : VerifierError} (h : r.task = .error e) : e.IsTrueOn d := by
  rintro path rfl
  unfold task at h
  split at h
  · cases h
  · unfold check at h
    split at h
    · cases h
    · split at h <;> cases h

end Request

namespace Verifier

variable {v : Verifier ν} {r : Request} {task : Task}

/-- All that a verifier asks of the outside is always answered alike: a chain by the number and the
address, a download by the version, and a program by what it is run on. -/
structure Steady (v : Verifier ν) (o : Outside ν) (replies : Cache.Replies) : Prop where
  deployed : ∀ chain address, Session.Constant o (v.client.deployedCode chain address)
  creation : ∀ chain address, Session.Constant o (v.client.creationCode chain address)
  downloads : Cache.Answers o v.recompiler.cache replies
  programs : o.RunsAlike

/-! ## After the compiler is there -/

/-- What is done for a task after the compiler is there. -/
def examine (v : Verifier ν) (task : Task) : Session ν VerifierError Outcome := do
  let code ← v.fetchCode task
  let metadata ← Session.ofExcept
    ((Metadata.parse task.metadataText).mapError fun flaw => .invalidMetadata flaw.message)
  let compiled ← v.compile metadata task.version
  let verdict ← Bytecode.compare v.client task.chain task.address code compiled.artifact
  Session.log .info .verification "Verification finished"
    [("status", .shown verdict.status.text), ("target", .shown compiled.target.text)]
  return outcomeOf compiled verdict

theorem perform_eq : v.perform task
    = (v.recompiler.cache.ensure task.version).mapError VerifierError.compiler >>= fun _ =>
        v.examine task := by
  unfold perform examine
  rfl

section
variable (hsteady : Steady v o replies)
include hsteady

theorem agrees_fetchCode :
    Session.Agrees o s s' (VerifierError.IsTrueOn s.disk) (v.fetchCode task) := by
  have hask : Session.Agrees o s s' (VerifierError.IsTrueOn s.disk)
      ((v.client.askDeployed task.chain task.address).mapError .chain) :=
    .mapError (.delegate (hsteady.deployed _ _) _ fun _ => nofun)
  refine hask.bind fun code => ?_
  split
  · exact .bind (.log _ _ _ _) fun _ => .pure _
  · exact .fail nofun

omit hsteady in
theorem agrees_linkAloud (template actual : List Char) :
    Session.Agrees o s s' (VerifierError.IsTrueOn s.disk) (Bytecode.linkAloud template actual) := by
  refine .bind (.forM (fun _ => .log _ _ _ _) _) fun _ => .ofExcept fun error herror => ?_
  obtain ⟨e, -, rfl⟩ := mapError_eq_error_iff.1 herror
  exact nofun

theorem agrees_compare (chain : Nat) (address onChain : String) (artifact : Artifact) :
    Session.Agrees o s s' (VerifierError.IsTrueOn s.disk)
      (Bytecode.compare v.client chain address onChain artifact) := by
  refine (agrees_linkAloud _ _).bind fun linked => ?_
  split
  · exact .bind (.log _ _ _ _) fun _ => .pure _
  · exact .bind (.log _ _ _ _) fun _ => .pure _
  · exact .bind (.log _ _ _ _) fun _ => .pure _
  · dsimp only
    split
    · exact .pure _
    · have hask : Session.Agrees o s s' (VerifierError.IsTrueOn s.disk)
          ((v.client.askCreation chain address).mapError .chain) :=
        .mapError (.delegate (hsteady.creation _ _) _ fun _ => nofun)
      refine .bind (.log _ _ _ _) fun _ => hask.bind fun input => ?_
      refine (agrees_linkAloud _ _).bind fun linked => ?_
      dsimp only
      split
      · exact .bind (.log _ _ _ _) fun _ => .pure _
      · exact .pure _

variable (hsafe : Version.isSafe task.version.toList = true)
  (hknown : s.memory.path? task.version = some (v.recompiler.cache.path task.version))
include hsafe hknown

/-- What is done after the compiler is there asks for nothing but the file that is run. -/
theorem agrees_examine
    (hknown' : s'.memory.path? task.version = some (v.recompiler.cache.path task.version))
    (hfile : ∀ m, Metadata.parse task.metadataText = .ok m →
      Version.isSafe (m.backend.fileName task.version).toList = true →
        s'.disk.find (v.recompiler.cache.path (m.backend.fileName task.version))
          = s.disk.find (v.recompiler.cache.path (m.backend.fileName task.version))) :
    Session.Agrees o s s' (VerifierError.IsTrueOn s.disk) (v.examine task) := by
  refine (agrees_fetchCode hsteady).bind fun code => ?_
  refine .ofExcept_bind (fun error herror => ?_) fun m hparse => ?_
  · obtain ⟨e, -, rfl⟩ := mapError_eq_error_iff.1 herror
    exact nofun
  · have hcompile : Session.Agrees o s s' (VerifierError.IsTrueOn s.disk)
        (v.compile m task.version) := by
      have hrecompile := Recompiler.agrees_recompile hsteady.downloads hsafe hknown hsteady.programs
        hknown' (hfile m (mapError_eq_ok_iff.1 hparse))
      refine .bind (.log _ _ _ _) fun _ => hrecompile.attempt_bind (fun _ => .pure _) fun e he => ?_
      refine .bind (.log _ _ _ _) fun _ => .fail ?_
      rintro path ⟨⟩
      exact he path rfl
    refine hcompile.bind fun compiled => (agrees_compare hsteady _ _ _ _).bind fun verdict => ?_
    exact .bind (.log _ _ _ _) fun _ => .pure _

theorem compile_of_missing {m : Metadata} {tag : Option String} (hbackend : m.backend = .revive tag)
    (hname : Version.isSafe (m.backend.fileName task.version).toList = true)
    (hmissing : s.disk.exists? (v.recompiler.cache.path (m.backend.fileName task.version)) = .ok false)
    (hw : w.At s) :
    (v.compile m task.version o w).1 = .error (.compiler (.toolchainNotInstalled
      (v.recompiler.cache.path (m.backend.fileName task.version)))) := by
  rw [compile, Session.log_bind_apply]
  generalize [(⟨.info, _, _, _⟩ : Log.Event)] = events
  have hrecompile := Recompiler.recompile_of_missing hsteady.downloads hsafe hknown hbackend hname
    hmissing (w := w.logged events) ⟨hw.1, hw.2, hw.3⟩
  have hattempt : ((v.recompiler.recompile m task.version).attempt o (w.logged events) :
      Except VerifierError _ × World ν).1 = .ok (.error (.toolchainNotInstalled
        (v.recompiler.cache.path (m.backend.fileName task.version)))) := by
    rw [Session.fst_attempt, hrecompile]
  rw [Session.fst_bind_of_ok hattempt]
  rfl

/-- A toolchain that is missing is reported, if there is code. -/
theorem examine_of_missing {m : Metadata} {tag : Option String}
    (hparse : Metadata.parse task.metadataText = .ok m) (hbackend : m.backend = .revive tag)
    (hname : Version.isSafe (m.backend.fileName task.version).toList = true)
    (hmissing : s.disk.exists? (v.recompiler.cache.path (m.backend.fileName task.version)) = .ok false)
    (hw : w.At s) :
    (v.examine task o w).1 = (v.fetchCode task o w).1.bind fun _ =>
      .error (.compiler (.toolchainNotInstalled
        (v.recompiler.cache.path (m.backend.fileName task.version)))) := by
  have hfetch : Session.Agrees o s s (VerifierError.IsTrueOn s.disk) (v.fetchCode task) :=
    agrees_fetchCode hsteady
  have hleft := (hfetch w w hw hw).here
  cases hcode : (v.fetchCode task o w).1 with
  | error e => exact Session.fst_bind_of_error hcode _
  | ok code =>
    rw [examine, Session.fst_bind_of_ok hcode, hparse, Session.fst_bind_of_ok rfl]
    exact Session.fst_bind_of_error (compile_of_missing hsteady hsafe hknown hbackend hname hmissing
      hleft) _

end

/-! ## With the cache of earlier requests -/

/-- What is done after the compiler is there ends as with the cache of this request alone, unless the
toolchain is missing there and known here. -/
theorem examine_alone_cases (hsteady : Steady v o replies)
    (hstock : Stock v.recompiler.cache replies d s) (hstock' : Stock v.recompiler.cache replies d s')
    (hknown : s.memory.path? task.version = some (v.recompiler.cache.path task.version))
    (hknown' : s'.memory.path? task.version = some (v.recompiler.cache.path task.version))
    (hothers : ∀ other, other ≠ task.version → s.memory.path? other = none)
    (hw : w.At s) (hw' : w'.At s') :
    (v.examine task o w').1 = (v.examine task o w).1 ∨ ∃ tag, tag ≠ task.version ∧
      (s'.memory.path? tag).isSome ∧ (v.examine task o w).1
        = .error (.compiler (.toolchainNotInstalled (v.recompiler.cache.path tag))) := by
  obtain ⟨-, found, hkept, -⟩ := hstock.known _ _ hknown
  have hsafe := Cache.isSafe_of_kept hkept
  by_cases hfile : ∀ m, Metadata.parse task.metadataText = .ok m →
      Version.isSafe (m.backend.fileName task.version).toList = true →
        s'.disk.find (v.recompiler.cache.path (m.backend.fileName task.version))
          = s.disk.find (v.recompiler.cache.path (m.backend.fileName task.version))
  · exact .inl (agrees_examine hsteady hsafe hknown hknown' hfile w w' hw hw').same
  -- what is run is another file
  · simp only [Classical.not_forall] at hfile
    obtain ⟨m, hparse, hname, hne⟩ := hfile
    have hother : m.backend.fileName task.version ≠ task.version := by
      intro heq
      rw [heq] at hne
      exact hne (hstock.find_congr hstock' hsafe (by rw [hknown, hknown']))
    obtain ⟨tag, hbackend⟩ : ∃ tag, m.backend = .revive tag := by
      cases hbackend : m.backend with
      | solc => exact absurd (by rw [hbackend]; rfl) hother
      | revive tag => exact ⟨tag, rfl⟩
    obtain ⟨hmissing, hlater⟩ :=
      hstock.missing_of_find_ne hstock' hname (hothers _ hother) hne
    have hexamine := examine_of_missing hsteady hsafe hknown hparse hbackend hname hmissing hw
    cases hcode : (v.fetchCode task o w).1 with
    | ok code =>
      rw [hcode] at hexamine
      exact .inr ⟨_, hother, hlater, hexamine⟩
    | error e =>
      -- there is no code, whatever the files
      have hfetch : Session.Agrees o s s' (VerifierError.IsTrueOn s.disk) (v.fetchCode task) :=
        agrees_fetchCode hsteady
      have hcode' := (hfetch w w' hw hw').same.trans hcode
      rw [hcode] at hexamine
      exact .inl ((Session.fst_bind_of_error hcode' _).trans hexamine.symm)

/-- A verification checks its request and does what it asks for, but for what is logged. -/
theorem verify_cases (r : Request) (hw : w.At s) :
    ∃ w₁, w₁.At s ∧ (v.verify r o w).1 = ((Session.ofExcept r.task >>= v.perform) o w₁).1 ∧
      ∀ t, ((Session.ofExcept r.task >>= v.perform) o w₁).2.At t → (v.verify r o w).2.At t := by
  obtain ⟨w₁, hw₁, hresult, hleft⟩ := Session.within_of_at hw (v.checkAndPerform r) "verify"
    .verification [("chain_id", .integer r.chain), ("address", .shown r.address)]
  have hcheck : ∃ w₂, w₂.At s ∧
      v.checkAndPerform r o w₁ = (Session.ofExcept r.task >>= v.perform) o w₂ := by
    unfold checkAndPerform Request.task
    cases r.metadataText? with
    | none => exact ⟨w₁, hw₁, rfl⟩
    | some text =>
      exact ⟨_, @Session.Quiet.record ν VerifierError o "metadata_len" (.integer text.utf8ByteSize) s w₁
        hw₁, rfl⟩
  obtain ⟨w₂, hw₂, heq⟩ := hcheck
  rw [heq] at hresult hleft
  exact ⟨w₂, hw₂, hresult, hleft⟩

/-- Doing what a request asks for makes sure of the compiler first. -/
theorem perform_cases (hsteady : Steady v o replies) (hstock : Stock v.recompiler.cache replies d s)
    (hw : w.At s) :
    ∃ s₁ w₁, w₁.At s₁ ∧ Stock v.recompiler.cache replies d s₁ ∧
      (∀ other, s₁.memory.path? other
        = if other = task.version ∧ (kept v.recompiler.cache replies d task.version).isOk
          then some (v.recompiler.cache.path task.version) else s.memory.path? other) ∧
      v.perform task o w = match kept v.recompiler.cache replies d task.version with
        | .error e => (.error (.compiler e), w₁)
        | .ok _ => v.examine task o w₁ := by
  obtain ⟨s₁, w₁, hensure, hw₁, hstock₁, hpaths⟩ :=
    Cache.ensure_of_stock hsteady.downloads hw hstock task.version
  refine ⟨s₁, w₁, hw₁, hstock₁, hpaths, ?_⟩
  have hmade : ((v.recompiler.cache.ensure task.version).mapError VerifierError.compiler) o w
      = (((kept v.recompiler.cache replies d task.version).map fun _ =>
          v.recompiler.cache.path task.version).mapError VerifierError.compiler, w₁) := by
    rw [Session.mapError_apply, hensure]
  rw [perform_eq, Session.bind_apply, hmade]
  cases kept v.recompiler.cache replies d task.version with
  | error e => rfl
  | ok found => rfl

/-- What a verification leaves, if it does what it was asked for. -/
theorem perform_left (hsteady : Steady v o replies) (hstock : Stock v.recompiler.cache replies d s)
    (hw : w.At s) :
    ∃ s₁, (v.perform task o w).2.At s₁ ∧ Stock v.recompiler.cache replies d s₁ ∧
      (∀ other, s₁.memory.path? other
        = if other = task.version ∧ (kept v.recompiler.cache replies d task.version).isOk
          then some (v.recompiler.cache.path task.version) else s.memory.path? other) ∧
      ∀ error, (v.perform task o w).1 = .error error → error.IsTrueOn s₁.disk := by
  obtain ⟨s₁, w₁, hw₁, hstock₁, hpaths, hperform⟩ :=
    @perform_cases ν o w s d replies v task hsteady hstock hw
  rw [hperform]
  cases hkept : kept v.recompiler.cache replies d task.version with
  | error e =>
    refine ⟨s₁, hw₁, hstock₁, hkept ▸ hpaths, ?_⟩
    rintro error ⟨⟩ path ⟨⟩
    exact absurd hkept Cache.kept_ne_toolchainNotInstalled
  | ok found =>
    have hknown := hpaths task.version
    rw [if_pos ⟨rfl, by rw [hkept]; rfl⟩] at hknown
    have hexamine : Session.Agrees o s₁ s₁ (VerifierError.IsTrueOn s₁.disk) (v.examine task) :=
      agrees_examine hsteady (Cache.isSafe_of_kept hkept) hknown hknown fun _ _ _ => rfl
    obtain ⟨-, hleft, -, herrors⟩ := hexamine w₁ w₁ hw₁ hw₁
    exact ⟨s₁, hleft, hstock₁, hkept ▸ hpaths, herrors⟩

/-! ## Requests one after another -/

/-- The world after some requests one after another. -/
def after (v : Verifier ν) (o : Outside ν) (requests : List Request) (w : World ν) : World ν :=
  requests.foldl (fun w r => (v.verify r o w).2) w

/-- What the world is after some requests one after another, if the cache began with a disk: the cache
knows just the versions that were asked for and are kept. -/
def Standing (v : Verifier ν) (replies : Cache.Replies) (d : Disk) (asked : List Request)
    (w : World ν) : Prop :=
  ∃ s, w.At s ∧ Stock v.recompiler.cache replies d s ∧ ∀ version,
    (s.memory.path? version).isSome ↔
      (∃ r ∈ asked, r.version? = some version) ∧ (kept v.recompiler.cache replies d version).isOk

variable {asked : List Request}

theorem standing_start (x : ν) (d : Disk) : Standing v replies d [] (.start x d) :=
  ⟨⟨.empty, d⟩, ⟨rfl, rfl, rfl⟩, .start _ _ _, fun _ => by
    simp [Cache.Memory.path?, Cache.Memory.empty, Dictionary.get?]⟩

/-- What was asked for and is kept stands in its place. -/
theorem Standing.exists_of_kept {version : String} (h : Standing v replies d asked w)
    (hasked : ∃ r ∈ asked, r.version? = some version)
    (hkept : (kept v.recompiler.cache replies d version).isOk) :
    w.disk.exists? (v.recompiler.cache.path version) = .ok true := by
  obtain ⟨s, hw, hstock, hknown⟩ := h
  obtain ⟨path, hpath⟩ := Option.isSome_iff_exists.1 ((hknown version).2 ⟨hasked, hkept⟩)
  obtain ⟨-, found, -, hfind⟩ := hstock.known version path hpath
  rw [hw.disk]
  exact Disk.exists?_eq_true_iff.2 ⟨found, hfind⟩

/-- One more request. -/
theorem Standing.verify (h : Standing v replies d asked w) (hsteady : Steady v o replies) (r : Request) :
    Standing v replies d (asked ++ [r]) (v.verify r o w).2 ∧
      ∀ error, (v.verify r o w).1 = .error error → error.IsTrueOn (v.verify r o w).2.disk := by
  obtain ⟨s, hw, hstock, hknown⟩ := h
  obtain ⟨w₁, hw₁, hresult, hleft⟩ := @verify_cases ν o w s v r hw
  cases htask : r.task with
  | error e =>
    -- nobody asks for a version that was not asked for before
    rw [htask] at hresult hleft
    have hsame : ∀ version, (∃ q ∈ asked ++ [r], q.version? = some version) ↔
        ∃ q ∈ asked, q.version? = some version := by
      simp [or_and_right, exists_or, Request.version?, htask, Except.toOption]
    refine ⟨⟨s, hleft s hw₁, hstock, fun version => by rw [hsame, hknown]⟩, fun error herror => ?_⟩
    obtain rfl : e = error := Except.error.inj (hresult.symm.trans herror)
    exact Request.isTrueOn_of_task htask
  | ok task =>
    rw [htask] at hresult hleft
    obtain ⟨s₁, hleft₁, hstock₁, hpaths, herrors⟩ :=
      @perform_left ν o w₁ s d replies v task hsteady hstock hw₁
    have hw₂ := hleft s₁ hleft₁
    refine ⟨⟨s₁, hw₂, hstock₁, fun version => ?_⟩, ?_⟩
    · have hasked : (∃ q ∈ asked ++ [r], q.version? = some version) ↔
          version = task.version ∨ ∃ q ∈ asked, q.version? = some version := by
        simp [or_and_right, exists_or, Request.version?, htask, Except.toOption, or_comm, eq_comm]
      rw [hasked, hpaths]
      -- either the version of this request, now kept, or known as before
      split
      · next heq => simpa [heq.1] using heq.2
      · next hne =>
        rw [hknown]
        grind
    · rw [hw₂.disk, hresult]
      exact herrors

theorem Standing.after (h : Standing v replies d asked w) (hsteady : Steady v o replies)
    (requests : List Request) : Standing v replies d (asked ++ requests) (v.after o requests w) := by
  induction requests generalizing asked w with
  | nil =>
    rw [List.append_nil]
    exact h
  | cons r requests ih =>
    rw [List.append_cons]
    exact ih (h.verify hsteady r).1

/-- A request is answered as alone, unless its toolchain is not installed then and an earlier request has
put a compiler in its place. -/
theorem verify_alone_cases (hsteady : Steady v o replies) (r : Request)
    (hstart : Standing v replies d [] w) (hlater : Standing v replies d asked w') :
    (v.verify r o w').1 = (v.verify r o w).1 ∨ ∃ tag,
      (v.verify r o w).1
        = .error (.compiler (.toolchainNotInstalled (v.recompiler.cache.path tag))) ∧
      (∃ q ∈ asked, q.version? = some tag) ∧ (kept v.recompiler.cache replies d tag).isOk := by
  obtain ⟨s, hw, hstock, hknown⟩ := hstart
  obtain ⟨s', hw', hstock', hknown'⟩ := hlater
  obtain ⟨w₁, hw₁, hresult, -⟩ := @verify_cases ν o w s v r hw
  obtain ⟨w₂, hw₂, hresult', -⟩ := @verify_cases ν o w' s' v r hw'
  rw [hresult, hresult']
  cases htask : r.task with
  | error e => exact .inl rfl
  | ok task =>
    show (v.perform task o w₂).1 = (v.perform task o w₁).1 ∨ ∃ tag, (v.perform task o w₁).1 = _ ∧ _
    obtain ⟨s₁, w₃, hw₃, hstock₁, hpaths, hperform⟩ :=
      @perform_cases ν o w₁ s d replies v task hsteady hstock hw₁
    obtain ⟨s₂, w₄, hw₄, hstock₂, hpaths', hperform'⟩ :=
      @perform_cases ν o w₂ s' d replies v task hsteady hstock' hw₂
    rw [hperform, hperform']
    -- the compiler is made sure of with the same result in both worlds
    cases hkept : kept v.recompiler.cache replies d task.version with
    | error e => exact .inl rfl
    | ok found =>
      have hunknown : ∀ other, s.memory.path? other = none := fun other => by
        simpa using hknown other
      have hpath := hpaths task.version
      have hpath' := hpaths' task.version
      rw [if_pos ⟨rfl, by rw [hkept]; rfl⟩] at hpath hpath'
      have hothers : ∀ other, other ≠ task.version → s₁.memory.path? other = none := by
        intro other hne
        rw [hpaths, if_neg fun h => hne h.1, hunknown]
      rcases examine_alone_cases hsteady hstock₁ hstock₂ hpath hpath' hothers hw₃ hw₄ with
        hsame | ⟨tag, hne, htag, hexamine⟩
      · exact .inl hsame
      · rw [hpaths', if_neg fun h => hne h.1] at htag
        exact .inr ⟨tag, hexamine, (hknown' tag).1 htag⟩

/-- A request is answered otherwise than alone just when, alone, it is turned down since the toolchain of
its tag is not installed, and the compiler that an earlier request asked for has the tag as its version. -/
theorem verify_after_ne_iff (hsteady : Steady v o replies) (before : List Request) (r : Request) (x : ν)
    (d : Disk) :
    (v.verify r o (v.after o before (.start x d))).1 ≠ (v.verify r o (.start x d)).1 ↔
      ∃ tag, (v.verify r o (.start x d)).1
          = .error (.compiler (.toolchainNotInstalled (v.recompiler.cache.path tag))) ∧
        (∃ q ∈ before, q.version? = some tag) ∧ (kept v.recompiler.cache replies d tag).isOk := by
  have hstart : Standing v replies d [] (.start x d) := standing_start x d
  have hlater := hstart.after hsteady before
  constructor
  · intro hne
    exact (verify_alone_cases hsteady r hstart hlater).resolve_left hne
  · rintro ⟨tag, halone, hasked, hkept⟩ hsame
    -- it would be turned down later as well
    obtain ⟨hstanding, htrue⟩ := hlater.verify hsteady r
    have hmissing := htrue _ (hsame.trans halone) _ rfl
    obtain ⟨q, hq, hasks⟩ := hasked
    have hfound := hstanding.exists_of_kept ⟨q, by simp [hq], hasks⟩ hkept
    rw [hmissing] at hfound
    cases hfound

/-! ## A compiler in the place of a toolchain -/

/-- An outside that sends the same file for every version, which is no program. -/
def sending (file : Bytes) : Outside Unit where
  exchange _ x := (some ⟨200, none, file, true⟩, x)
  run _ x := (.notStarted .notFound, x)
  draw _ x := (0, x)
  listen _ x := (.error .addressNotAvailable, x)

/-- A verifier of contracts that all have the same code. -/
def ofCode (code : String) : Verifier Unit where
  recompiler := ⟨⟨"/", "http://host/"⟩, .ofSeconds 1⟩
  client := ⟨fun _ _ => pure code, fun _ _ => pure code⟩

/-- What is sent for a version, if its name can be in an address. -/
def sent (file : Bytes) : Cache.Replies := fun version =>
  (Http.target ("http://host/" ++ version)).map fun _ => ⟨200, none, file, true⟩

theorem steady_ofCode (code : String) (file : Bytes) :
    Steady (ofCode code) (sending file) (sent file) where
  deployed _ _ := ⟨.pure code, fun _ _ => rfl⟩
  creation _ _ := ⟨.pure code, fun _ _ => rfl⟩
  downloads version w := by
    have hget : ∀ w, ((Http.get ("http://host/" ++ version) [("accept", "*/*")] :
        Session Unit Http.TransferError Http.Reply) (sending file) w).1 = sent file version := by
      intro w
      unfold Http.get Http.send sent
      cases Http.target ("http://host/" ++ version) with
      | error e => rfl
      | ok url =>
        rw [Session.fst_bind_of_ok rfl]
        unfold Http.follow
        rfl
    rw [Cache.download, Session.fst_bind_of_ok rfl, Session.fst_attempt]
    exact congrArg Except.ok (hget _)
  programs _ _ _ := rfl

/-- A request for a version with a metadata document. -/
def requestOf (version document : String) : Request :=
  ⟨"0x32Be343B94f860124DC4fEe278FDCBD38C102D88", .string document, 1, version⟩

/-- The metadata document of a contract with one source, compiled with the toolchain of a tag. -/
def documentOf (tag : String) : String :=
  "\x7b\"sources\":\x7b\"a\":\x7b\"content\":\"c\"\x7d\x7d,\"revive_version\":\"" ++ tag ++ "\"\x7d"

theorem verify_documentOf_alone :
    (verify (ofCode "0x6001") (requestOf "0.8.26" (documentOf "v0.1.0")) (sending [])
        (.start () ⟨[], []⟩)).1
      = .error (.compiler (.toolchainNotInstalled
          ((ofCode "0x6001").recompiler.cache.path "v0.1.0"))) :=
  errorOf?_eq_some_iff.1 (by decide +kernel)

/-- What an earlier request asked for has the toolchain's tag. -/
theorem verify_after_ne_iff_of_tag :
    Steady (ofCode "0x6001") (sending []) (sent []) ∧
      (verify (ofCode "0x6001") (requestOf "0.8.26" (documentOf "v0.1.0")) (sending [])
          (after (ofCode "0x6001") (sending []) [requestOf "0.1.0" "-"] (.start () ⟨[], []⟩))).1
        ≠ (verify (ofCode "0x6001") (requestOf "0.8.26" (documentOf "v0.1.0")) (sending [])
            (.start () ⟨[], []⟩)).1 := by
  have hsteady := steady_ofCode "0x6001" []
  have hasks : ∃ q ∈ [requestOf "0.1.0" "-"], q.version? = some "v0.1.0" :=
    ⟨_, List.mem_singleton_self _, by decide +kernel⟩
  have hkept : (kept (ofCode "0x6001").recompiler.cache (sent []) ⟨[], []⟩ "v0.1.0").isOk := by
    decide +kernel
  refine ⟨hsteady, ?_⟩
  rw [verify_after_ne_iff hsteady]
  exact ⟨"v0.1.0", verify_documentOf_alone, hasks, hkept⟩

/-- Two requests of which the later is not answered as alone: the compiler of the earlier one is run as its
toolchain. -/
theorem verify_after_same_name :
    ∃ (v : Verifier Unit) (o : Outside Unit) (replies : Cache.Replies) (d : Disk) (before : List Request)
      (r : Request) (tag : String), Steady v o replies ∧
        (v.verify r o (.start () d)).1
          = .error (.compiler (.toolchainNotInstalled (v.recompiler.cache.path tag))) ∧
        (v.verify r o (v.after o before (.start () d))).1
          = .error (.compiler (.spawn (v.recompiler.cache.path tag) .notFound)) :=
  ⟨ofCode "0x6001", sending [], sent [], ⟨[], []⟩, [requestOf "0.1.0" "-"],
    requestOf "0.8.26" (documentOf "v0.1.0"), "v0.1.0", steady_ofCode _ _, verify_documentOf_alone,
    errorOf?_eq_some_iff.1 (by decide +kernel)⟩

end Verifier

end Provenance
