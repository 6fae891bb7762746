import Provenance.Cache.Ensure
import Provenance.Proofs.Cache.Memory
import Provenance.Proofs.Cache.Names
import Provenance.Proofs.Cache.Transition
import Provenance.Proofs.Http.Course
import Provenance.Proofs.Passive

/-!
# What making sure of a compiler does

A call of the cache that no other call disturbs, in any world: whatever the cache remembers and holds, and
whatever goes wrong with files and downloads. `Provision` lists how it may go; the version is downloaded at
most once, and only if it is neither known nor found. A download is a request for what is at the address of
the version (`Fetches`).
-/

namespace Provenance

namespace Cache

variable {ν ε : Type} {o : Outside ν} {c : Cache} {version : String}

/-- How a call about a version goes, from what the cache knows and holds before: what it does to the outside,
with which result it ends, and what it leaves. -/
inductive Provision (c : Cache) (version : String) (s : Shared) : List Effect → Result → Shared → Prop
  | refuse (unsafeName : Version.isSafe version.toList = false) :
    Provision c version s [] (.error (.invalidVersion version)) s
  | know {path} (safeName : Version.isSafe version.toList = true)
    (known : s.memory.path? version = some path) :
    Provision c version s [] (.ok path) s
  | find {s'} (safeName : Version.isSafe version.toList = true)
    (unknown : s.memory.path? version = none)
    (found : s.disk.exists? (c.path version) = .ok true) (same : s'.disk = s.disk)
    (remembered : s'.memory.path? version = some (c.path version)) :
    Provision c version s [] (.ok (c.path version)) s'
  /-- The version cannot be looked for on the disk. -/
  | fail {s' error} (safeName : Version.isSafe version.toList = true)
    (unknown : s.memory.path? version = none) :
    Provision c version s [] (.error error) s'
  | download {s'} (safeName : Version.isSafe version.toList = true)
    (unknown : s.memory.path? version = none)
    (missing : s.disk.exists? (c.path version) = .ok false)
    (installed : s'.disk.exists? (c.path version) = .ok true)
    (remembered : s'.memory.path? version = some (c.path version)) :
    Provision c version s [.download version] (.ok (c.path version)) s'
  /-- The version is not there, and it cannot be had. -/
  | failDownload {s' error} (safeName : Version.isSafe version.toList = true)
    (unknown : s.memory.path? version = none)
    (missing : s.disk.exists? (c.path version) = .ok false) :
    Provision c version s [.download version] (.error error) s'

/-- What making sure of a version asks of the outside: nothing, or what is at the version's address, which is
then noted as a download. -/
inductive Fetches (c : Cache) (version : String) (o : Outside ν) (outside : ν) : List Effect → ν → Prop
  | nothing : Fetches c version o outside [] outside
  | sent {exchanges reply outside'} (sent : Http.Sent o (c.downloadBase ++ version)
      (⟨.get, ·, [("accept", "*/*")], none⟩) outside exchanges reply outside') :
    Fetches c version o outside [.download version] outside'

namespace Provision

variable {s s' : Shared} {trace : List Effect} {result : Result}

/-- All that is done is at most one download. -/
theorem sublist (h : Provision c version s trace result s') :
    trace.Sublist [.download version] := by
  cases h <;> simp

/-- Afterwards the version is known. -/
theorem known {path : String} (h : Provision c version s trace (.ok path) s') :
    Version.isSafe version.toList = true ∧ s'.memory.path? version = some path := by
  cases h with
  | know safeName known => exact ⟨safeName, known⟩
  | find safeName _ _ _ remembered => exact ⟨safeName, remembered⟩
  | download safeName _ _ _ remembered => exact ⟨safeName, remembered⟩

/-- Afterwards the compiler is in its place, unless the cache was wrong about the version before. -/
theorem present {path : String} (h : Provision c version s trace (.ok path) s')
    (htrue : ∀ path, s.memory.path? version = some path → s.disk.exists? path = .ok true) :
    s'.disk.exists? path = .ok true := by
  cases h with
  | know _ known => exact htrue path known
  | find _ _ found same _ => rwa [same]
  | download _ _ _ installed _ => exact installed

/-- The version is downloaded only if it is neither known nor there. -/
theorem missing (h : Provision c version s trace result s') {effect : Effect} (hmem : effect ∈ trace) :
    s.memory.path? version = none ∧ s.disk.exists? (c.path version) = .ok false := by
  cases h with
  | refuse | know | find | fail => cases hmem
  | download _ unknown missing _ _ => exact ⟨unknown, missing⟩
  | failDownload _ unknown missing => exact ⟨unknown, missing⟩

end Provision

/-! ## From stage to stage -/

/-- What is written for a version stands under its temporary name. -/
def IsWritten (c : Cache) (version : String) (d : Disk) : Prop :=
  ∃ place mode content, d.find (c.partialPath version) = .ok (place, .file mode content)

/-- What a call about a version that was not known has done when it comes to a stage. -/
def Underway (c : Cache) (version : String) (s : Shared) (trace : List Effect) : Stage → Shared → Prop
  | .starting, _ | .abandoned, _ => False
  | .looking, s' | .waiting _, s' | .checking _, s' | .probing _, s' =>
    trace = [] ∧ s'.memory.path? version = none ∧ s'.disk = s.disk
  | .requesting _ address, _ =>
    trace = [] ∧ address = c.downloadBase ++ version ∧ s.disk.exists? (c.path version) = .ok false
  | .writing _ _, _ => trace = [.download version] ∧ s.disk.exists? (c.path version) = .ok false
  | .marking _, s' | .renaming _, s' =>
    trace = [.download version] ∧ s.disk.exists? (c.path version) = .ok false ∧ IsWritten c version s'.disk
  | .recording _ _, s' =>
    (trace = [] ∧ s.disk.exists? (c.path version) = .ok true ∧ s'.disk = s.disk) ∨
      (trace = [.download version] ∧ s.disk.exists? (c.path version) = .ok false ∧
        s'.disk.exists? (c.path version) = .ok true)
  | .releasing _ result, s' | .dropping _ result, s' | .leaving result, s' | .done result, s' =>
    Provision c version s trace result s'

namespace Underway

variable {s s₁ s₂ : Shared} {trace : List Effect} {stage stage' : Stage} {move : Move}

section
variable (safeName : Version.isSafe version.toList = true) (unknown : s.memory.path? version = none)
include safeName unknown

/-- Wherever a call fails, it has done at most one download. -/
theorem failed (h : Underway c version s trace stage s₁) (error : CompilerError) (s₂ : Shared) :
    Provision c version s trace (.error error) s₂ := by
  -- what was already said of the result is forgotten, and the trace stays
  have hfailed : ∀ result, Provision c version s trace result s₁ →
      Provision c version s trace (.error error) s₂ := by
    intro result hprovision
    cases hprovision with
    | refuse | know | find | fail => exact .fail safeName unknown
    | download _ _ missing | failDownload _ _ missing => exact .failDownload safeName unknown missing
  cases stage with
  | starting | abandoned => exact h.elim
  | looking | waiting | checking | probing | requesting =>
    obtain ⟨rfl, -⟩ := h
    exact .fail safeName unknown
  | writing =>
    obtain ⟨rfl, missing⟩ := h
    exact .failDownload safeName unknown missing
  | marking | «renaming» =>
    obtain ⟨rfl, missing, -⟩ := h
    exact .failDownload safeName unknown missing
  | recording =>
    rcases h with ⟨rfl, -⟩ | ⟨rfl, missing, -⟩
    · exact .fail safeName unknown
    · exact .failDownload safeName unknown missing
  | releasing | dropping | leaving | done => exact hfailed _ h

/-- What has been done stays done when only the locks of the memory change. -/
theorem provision_congr {result : Result} (h : Provision c version s trace result s₁)
    (hmemory : s₂.memory.path? version = s₁.memory.path? version) (hdisk : s₂.disk = s₁.disk) :
    Provision c version s trace result s₂ := by
  cases h with
  | refuse unsafeName => rw [safeName] at unsafeName; cases unsafeName
  | know _ known => rw [unknown] at known; cases known
  | find _ _ found same remembered =>
    exact .find safeName unknown found (hdisk.trans same) (hmemory.trans remembered)
  | fail => exact .fail safeName unknown
  | download _ _ missing installed remembered =>
    exact .download safeName unknown missing (by rwa [hdisk]) (hmemory.trans remembered)
  | failDownload _ _ missing => exact .failDownload safeName unknown missing

/-- A step does nothing to the outside. -/
theorem transition (hmove : move.isAbandonment = false) (hreply : move.reply? = none)
    (h : Underway c version s trace stage s₁)
    (ht : Transition c version move stage s₁ stage' s₂) : Underway c version s trace stage' s₂ := by
  cases ht with
  | stay => exact h
  | refuse | meet | miss => exact h.elim
  | take taken =>
    obtain ⟨rfl, hpath, hdisk⟩ := h
    exact ⟨rfl, (Memory.path?_of_takeLock taken).trans hpath, hdisk⟩
  | hold =>
    obtain ⟨rfl, hpath, hdisk⟩ := h
    exact ⟨rfl, hpath, hdisk⟩
  | meetAgain known =>
    obtain ⟨-, hpath, -⟩ := h
    rw [hpath] at known
    cases known
  | missAgain => exact h
  | find found =>
    obtain ⟨rfl, -, hdisk⟩ := h
    exact .inl ⟨rfl, hdisk ▸ found, hdisk⟩
  | request missing =>
    obtain ⟨rfl, -, hdisk⟩ := h
    exact ⟨rfl, rfl, hdisk ▸ missing⟩
  | receive replied =>
    rw [hreply] at replied
    cases replied
  | write written =>
    obtain ⟨rfl, missing⟩ := h
    obtain ⟨-, -, place, mode, hfind⟩ := write_partialPath safeName written
    exact ⟨rfl, missing, place, mode, _, hfind⟩
  | mark marked =>
    obtain ⟨rfl, missing, place, mode, content, hfind⟩ := h
    obtain ⟨-, -, hkept⟩ := setMode_partialPath safeName marked
    exact ⟨rfl, missing, place, _, content, hkept _ _ _ hfind⟩
  | rename renamed =>
    obtain ⟨rfl, missing, place, mode, content, hfind⟩ := h
    obtain ⟨-, goal, hgoal⟩ := rename_partialPath safeName renamed hfind
    exact .inr ⟨rfl, missing, Disk.exists?_eq_true_iff.2 ⟨_, hgoal⟩⟩
  | record =>
    have hremembered : (s₁.memory.install version (c.path version)).path? version
        = some (c.path version) := by
      rw [Memory.path?_install, if_pos rfl]
    rcases h with ⟨rfl, found, hdisk⟩ | ⟨rfl, missing, installed⟩
    · exact .find safeName unknown found hdisk hremembered
    · exact .download safeName unknown missing installed hremembered
  | fail => exact h.failed safeName unknown _ _
  | failWriting => exact h.failed safeName unknown _ _
  | letGo => exact provision_congr safeName unknown h Memory.path?_letGo rfl
  | drop => exact provision_congr safeName unknown h Memory.path?_dropClone rfl
  | leave => exact provision_congr safeName unknown h Memory.path?_forgetLock rfl
  | giveUpWaiting givenUp | giveUpHolding givenUp =>
    rw [hmove] at givenUp
    cases givenUp

/-- A download is one. -/
theorem receive {lock : Nat} {address : String} (h : Underway c version s trace (.requesting lock address) s₁)
    (reply : Except Http.TransferError Http.Reply) :
    Underway c version s (trace ++ [.download version]) (receive version reply (.requesting lock address))
      s₁ := by
  obtain ⟨rfl, -, missing⟩ := h
  rw [Cache.receive]
  cases downloaded version reply with
  | ok content => exact ⟨rfl, missing⟩
  | error e => exact .failDownload safeName unknown missing

end

end Underway

/-! ## Sessions -/

section
variable {w : World ν} {s : Shared} {trace before : List Effect} {outside : ν}

/-- Reporting a step is logging. -/
theorem report_apply (stage stage' : Stage) (w : World ν) :
    ∃ events, (c.report version stage stage' : Session ν ε Unit) o w = (.ok (), w.logged events) := by
  unfold report
  split
  · exact ⟨_, Session.log_apply _ _ _ _⟩
  · exact ⟨_, by rw [Session.log_bind_apply, Session.log_apply, World.logged_logged]⟩
  · exact ⟨_, Session.log_apply _ _ _ _⟩
  · exact ⟨[], by rw [World.logged_nil]; rfl⟩

/-- A step in the world is a step, be it with a mishap, which is then reported. -/
theorem stepAloud_apply (stage : Stage) (w : World ν) :
    ∃ mishap w', (c.stepAloud version stage : Session ν ε Stage) o w
        = (.ok (step c version mishap stage w.shared).1, w') ∧
      w'.shared = (step c version mishap stage w.shared).2 ∧ w'.effects = w.effects ∧ w'.outside = w.outside := by
  -- only some stages ask whether a mishap is next
  have hstep : ∃ (mishap : Option Mishap) (w₁ : World ν), w₁.effects = w.effects ∧ w₁.outside = w.outside ∧
      (c.stepAloud version stage : Session ν ε Stage) o w
        = (report c version stage (step c version mishap stage w.shared).1 >>= fun _ =>
            pure (step c version mishap stage w.shared).1 : Session ν ε Stage) o
          { w₁ with
            memory := (step c version mishap stage w.shared).2.memory
            disk := (step c version mishap stage w.shared).2.disk } := by
    rw [stepAloud]
    split
    · cases hmishaps : w.mishaps with
      | nil =>
        have hnext : (Session.nextMishap : Session ν ε _) o w = (.ok none, w) := by
          rw [Session.nextMishap, hmishaps]
        rw [Session.bind_of_ok hnext]
        exact ⟨none, w, rfl, rfl, rfl⟩
      | cons mishap rest =>
        have hnext : (Session.nextMishap : Session ν ε _) o w
            = (.ok mishap, { w with mishaps := rest }) := by
          rw [Session.nextMishap, hmishaps]
        rw [Session.bind_of_ok hnext]
        exact ⟨mishap, { w with mishaps := rest }, rfl, rfl, rfl⟩
    · exact ⟨none, w, rfl, rfl, rfl⟩
  obtain ⟨mishap, w₁, heffects, houtside, hstep⟩ := hstep
  refine ⟨mishap, ?_⟩
  rw [← heffects, ← houtside]
  generalize step c version mishap stage w.shared = stepped at hstep ⊢
  obtain ⟨stage', t⟩ := stepped
  obtain ⟨events, hreport⟩ := @report_apply ν ε o c version stage stage'
    { w₁ with memory := t.memory, disk := t.disk }
  refine ⟨World.logged { w₁ with memory := t.memory, disk := t.disk } events, ?_, rfl, rfl, rfl⟩
  rw [hstep, Session.bind_of_ok hreport]
  rfl

/-- A download is a request for what is at the address, which is all that it does but for its note. -/
theorem download_sent (address : String) (w : World ν) :
    ∃ exchanges reply outside',
      Http.Sent o address (⟨.get, ·, [("accept", "*/*")], none⟩) w.outside exchanges reply outside' ∧
      (download version address : Session ν ε _) o w
        = (.ok reply, { w with outside := outside', effects := w.effects ++ [.download version] }) := by
  obtain ⟨exchanges, reply, outside', hsent, hget⟩ := Http.exists_sent o .get address [("accept", "*/*")] none
    { w with effects := w.effects ++ [.download version] }
  exact ⟨exchanges, reply, outside', hsent, Session.attempt_apply_of hget⟩

/-- A call goes on from where it is. -/
theorem advance_underway (safeName : Version.isSafe version.toList = true)
    (unknown : s.memory.path? version = none) {stage : Stage}
    (h : Underway c version s trace stage w.shared) (hfetches : c.Fetches version o outside trace w.outside)
    (heffects : w.effects = before ++ trace) :
    ∃ stage' w' trace', (c.advance version stage : Session ν ε Stage) o w = (.ok stage', w') ∧
      Underway c version s trace' stage' w'.shared ∧ c.Fetches version o outside trace' w'.outside ∧
      w'.effects = before ++ trace' := by
  cases hrequesting : stage.address? with
  | some address =>
    obtain ⟨lock, rfl⟩ := Stage.address?_eq_some_iff.1 hrequesting
    obtain ⟨exchanges, reply, outside', hsent, hdownload⟩ := @download_sent ν ε o version address w
    refine ⟨receive version reply (.requesting lock address),
      { w with outside := outside', effects := w.effects ++ [.download version] }, trace ++ [.download version], ?_,
      h.receive safeName unknown reply, ?_, ?_⟩
    · rw [advance, Session.bind_of_ok hdownload]
      rfl
    · -- nothing was asked before
      obtain ⟨rfl, rfl, -⟩ := h
      cases hfetches with
      | nothing => exact .sent hsent
    · rw [heffects, List.append_assoc]
  | none =>
    have hadvance : (c.advance version stage : Session ν ε Stage) = c.stepAloud version stage :=
      advance_of_address?_eq_none hrequesting
    obtain ⟨mishap, w', hstep, hshared, hsame, houtside⟩ := @stepAloud_apply ν ε o c version stage w
    refine ⟨_, w', trace, hadvance ▸ hstep, ?_, houtside ▸ hfetches, by rw [hsame, heffects]⟩
    rw [hshared]
    have hmove : Transition c version (.advance 0 mishap) stage w.shared _ _ :=
      transition_step mishap stage w.shared
    exact h.transition safeName unknown rfl rfl hmove

theorem drive_underway (safeName : Version.isSafe version.toList = true)
    (unknown : s.memory.path? version = none) (steps : Nat) {stage : Stage}
    (h : Underway c version s trace stage w.shared) (hfetches : c.Fetches version o outside trace w.outside)
    (heffects : w.effects = before ++ trace) :
    ∃ stage' w' trace', (c.drive version steps stage : Session ν ε Stage) o w = (.ok stage', w') ∧
      Underway c version s trace' stage' w'.shared ∧ c.Fetches version o outside trace' w'.outside ∧
      w'.effects = before ++ trace' := by
  induction steps generalizing stage w trace with
  | zero => exact ⟨stage, w, trace, rfl, h, hfetches, heffects⟩
  | succ steps ih =>
    obtain ⟨stage₁, w₁, trace₁, hadvance, h₁, hfetches₁, heffects₁⟩ :=
      @advance_underway ν ε o c version w s trace before outside safeName unknown stage h hfetches heffects
    obtain ⟨stage', w', trace', hdrive, h', hfetches', heffects'⟩ := ih h₁ hfetches₁ heffects₁
    refine ⟨stage', w', trace', ?_, h', hfetches', heffects'⟩
    rw [drive, Session.bind_of_ok hadvance]
    exact hdrive

/-- A call that has ended stays at its end. -/
theorem drive_done (steps : Nat) (result : Result) (w : World ν) :
    (c.drive version steps (.done result) : Session ν ε Stage) o w = (.ok (.done result), w) := by
  induction steps with
  | zero => rfl
  | succ steps ih => exact ih

/-- The first step of a call changes nothing. -/
theorem advance_starting (w : World ν) :
    (c.advance version .starting : Session ν ε Stage) o w
      = (.ok (step c version none .starting w.shared).1, w) := by
  have hsame : (step c version none .starting w.shared).2 = w.shared := by
    unfold step
    dsimp only
    split
    · rfl
    · split <;> rfl
  have happly : (c.advance version .starting : Session ν ε Stage) o w
      = (.ok (step c version none .starting w.shared).1,
          { w with
            memory := (step c version none .starting w.shared).2.memory
            disk := (step c version none .starting w.shared).2.disk }) := rfl
  rw [happly, hsame]
  rfl

/-- What becomes of a call is known after its first step. -/
theorem ensure_of_drive {stage stage' : Stage} {w' : World ν}
    (hstep : (step c version none .starting w.shared).1 = stage)
    (hdrive : (c.drive version 12 stage : Session ν CompilerError Stage) o w = (.ok stage', w')) :
    c.ensure version o w
      = (stage'.result?.getD (.error (.cache (c.path version) .busy)), w') := by
  have hall : (c.drive version maxSteps .starting : Session ν CompilerError Stage) o w
      = (.ok stage', w') := by
    rw [maxSteps, drive, Session.bind_of_ok (advance_starting w), hstep]
    exact hdrive
  rw [ensure, Session.bind_of_ok hall]
  cases stage'.result? with
  | some result => rfl
  | none => rfl

/-- A version that can name no file is turned down at once. -/
theorem ensure_of_not_isSafe (hname : Version.isSafe version.toList = false) (w : World ν) :
    c.ensure version o w = (.error (.invalidVersion version), w) :=
  ensure_of_drive (by simp [step, hname]) (drive_done _ (.error (.invalidVersion version)) w)

/-- A version that is known is met at once. -/
theorem ensure_eq_of_known {path : String} (hsafe : Version.isSafe version.toList = true)
    (hknown : w.memory.path? version = some path) : c.ensure version o w = (.ok path, w) :=
  ensure_of_drive (by simp [step, hsafe, World.shared, hknown]) (drive_done _ (.ok path) w)

/-- Making sure of a compiler is a provision of it, for which only its address is asked. -/
theorem provision_ensure (c : Cache) (version : String) (o : Outside ν) (w : World ν) :
    ∃ trace, (c.ensure version o w).2.effects = w.effects ++ trace ∧
      Provision c version w.shared trace (c.ensure version o w).1 (c.ensure version o w).2.shared ∧
      c.Fetches version o w.outside trace (c.ensure version o w).2.outside := by
  cases hsafe : Version.isSafe version.toList with
  | false =>
    rw [ensure_of_not_isSafe hsafe]
    exact ⟨[], (List.append_nil _).symm, .refuse hsafe, .nothing⟩
  | true =>
    cases hpath : w.memory.path? version with
    | some path =>
      rw [ensure_eq_of_known hsafe hpath]
      exact ⟨[], (List.append_nil _).symm, .know hsafe hpath, .nothing⟩
    | none =>
      obtain ⟨stage, w', trace, hdrive, hstage, hfetches, heffects⟩ :=
        @drive_underway ν CompilerError o c version w w.shared [] w.effects w.outside hsafe hpath 12 .looking
          ⟨rfl, hpath, rfl⟩ .nothing (List.append_nil _).symm
      rw [ensure_of_drive (by simp [step, hsafe, World.shared, hpath]) hdrive]
      refine ⟨trace, heffects, ?_, hfetches⟩
      cases stage with
      | done result => exact hstage
      | _ => exact hstage.failed hsafe hpath _ _

end

end Cache

end Provenance
