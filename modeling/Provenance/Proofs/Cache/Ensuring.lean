import Provenance.Cache.Ensure
import Provenance.Proofs.Agreement
import Provenance.Proofs.Cache.Alone
import Provenance.Proofs.Cache.Transition

/-!
# Calls in the world

In a world in which no operation on files goes wrong for no reason, and whose downloads are always
answered alike, a call goes as it goes alone, whatever was logged before and has become of the outside.
-/

namespace Provenance.Cache

variable {ν : Type} {o : Outside ν} {w : World ν} {c : Cache} {version : String} {s s' : Shared}
  {d : Disk} {replies : Replies}

/-- Every download is answered as the replies tell. -/
def Answers (o : Outside ν) (c : Cache) (replies : Replies) : Prop :=
  ∀ (version : String) (w : World ν),
    ((download version (c.url version) : Session ν CompilerError _) o w).1 = .ok (replies version)

theorem quiet_download {ε : Type} (address : String) : Session.Quiet o (download version address : Session ν ε _) :=
  (Session.Quiet.note _).bind fun _ => (Session.Quiet.get _ _).attempt

theorem fst_report {ε : Type} (stage stage' : Stage) (w : World ν) :
    ((c.report version stage stage' : Session ν ε Unit) o w).1 = .ok () := by
  unfold report
  split <;> rfl

/-- A step in the world is a step, which is then reported. -/
theorem stepAloud_of_at {ε : Type} (hw : w.At s) (stage : Stage) :
    ∃ w', (c.stepAloud version stage : Session ν ε Stage) o w
        = (.ok (step c version none stage s).1, w') ∧
      w'.At (step c version none stage s).2 := by
  have hstep : (c.stepAloud version stage : Session ν ε Stage) o w
      = (report c version stage (step c version none stage s).1 >>= fun _ =>
          pure (step c version none stage s).1 : Session ν ε Stage) o
        { w with
          memory := (step c version none stage s).2.memory
          disk := (step c version none stage s).2.disk } := by
    have hshared : s = ⟨w.memory, w.disk⟩ := by rw [hw.memory, hw.disk]
    have hmishap : (Session.nextMishap : Session ν ε _) o w = (.ok none, w) := by
      rw [Session.nextMishap, hw.mishaps]
    rw [stepAloud, hshared]
    split
    · rw [Session.bind_of_ok hmishap]
      rfl
    · rfl
  generalize step c version none stage s = stepped at hstep ⊢
  obtain ⟨stage', t⟩ := stepped
  have hquiet : Session.Quiet o (c.report version stage stage' : Session ν ε Unit) :=
    Session.Quiet.closed.report c version stage stage'
  have hreported := hquiet t { w with memory := t.memory, disk := t.disk } ⟨rfl, rfl, hw.mishaps⟩
  refine ⟨_, ?_, hreported⟩
  rw [hstep, Session.bind_of_ok (Prod.ext (fst_report stage stage' _) rfl)]
  rfl

theorem next_of_address?_eq_none {stage : Stage} (h : stage.address? = none) :
    next c replies version stage s = step c version none stage s := by
  cases stage with
  | requesting lock address => cases h
  | _ => rfl

/-- A call asks at the address of its version. -/
theorem address?_next {stage : Stage} {address : String}
    (h : (next c replies version stage s).1.address? = some address) : address = c.url version := by
  cases hstage : stage.address? with
  | some asked =>
    obtain ⟨lock, rfl⟩ := Stage.address?_eq_some_iff.1 hstage
    rw [next, receive] at h
    split at h <;> cases h
  | none =>
    rw [next_of_address?_eq_none hstage] at h
    have hstep : Transition c version (.advance 0 none) stage s _ _ := transition_step none stage s
    exact (hstep.address? h).resolve_right (by simp [hstage])

/-- Going on in the world is going on. -/
theorem advance_of_at (hanswers : Answers o c replies) (hw : w.At s) {stage : Stage}
    (hasked : ∀ address, stage.address? = some address → address = c.url version) :
    ∃ w', (c.advance version stage : Session ν CompilerError Stage) o w
        = (.ok (next c replies version stage s).1, w') ∧
      w'.At (next c replies version stage s).2 := by
  cases hstage : stage.address? with
  | some address =>
    obtain rfl := hasked address hstage
    obtain ⟨lock, rfl⟩ := Stage.address?_eq_some_iff.1 hstage
    have hdownload := hanswers version w
    refine ⟨((download version (c.url version) : Session ν CompilerError _) o w).2, ?_,
      quiet_download _ s w hw⟩
    rw [advance, Session.bind_of_ok (Prod.ext hdownload rfl)]
    rfl
  | none =>
    rw [next_of_address?_eq_none hstage, advance_of_address?_eq_none hstage]
    exact stepAloud_of_at hw stage

theorem drive_of_at (hanswers : Answers o c replies) (hw : w.At s) (steps : Nat) {stage : Stage}
    (hasked : ∀ address, stage.address? = some address → address = c.url version) :
    ∃ w', (c.drive version steps stage : Session ν CompilerError Stage) o w
        = (.ok (settle c replies version steps stage s).1, w') ∧
      w'.At (settle c replies version steps stage s).2 := by
  induction steps generalizing stage s w with
  | zero => exact ⟨w, rfl, hw⟩
  | succ steps ih =>
    obtain ⟨w', hadvance, hw'⟩ := @advance_of_at ν o w c version s replies hanswers hw stage hasked
    obtain ⟨w'', hdrive, hw''⟩ := ih hw' fun address => address?_next
    refine ⟨w'', ?_, hw''⟩
    rw [drive, Session.bind_of_ok hadvance]
    exact hdrive

/-- A call ends as it settles. -/
theorem ensure_of_settle {result : Result} (hanswers : Answers o c replies) (hw : w.At s)
    (hsettle : settle c replies version maxSteps .starting s = (.done result, s')) :
    ∃ w', c.ensure version o w = (result, w') ∧ w'.At s' := by
  obtain ⟨w', hdrive, hw'⟩ := @drive_of_at ν o w c version s replies hanswers hw maxSteps .starting nofun
  rw [hsettle] at hdrive hw'
  refine ⟨w', ?_, hw'⟩
  rw [ensure, Session.bind_of_ok hdrive]
  rfl

/-- A call about a version that is known leaves everything. -/
theorem ensure_of_known {path : String} (hanswers : Answers o c replies) (hw : w.At s)
    (hsafe : Version.isSafe version.toList = true) (hknown : s.memory.path? version = some path) :
    ∃ w', c.ensure version o w = (.ok path, w') ∧ w'.At s :=
  ensure_of_settle hanswers hw (settle_of_known hsafe hknown)

/-- Whatever calls there were before, a call comes to what the disk of the beginning and the reply to its
download tell. -/
theorem ensure_of_stock (hanswers : Answers o c replies) (hw : w.At s) (hstock : Stock c replies d s)
    (version : String) :
    ∃ s' w', c.ensure version o w = ((kept c replies d version).map fun _ => c.path version, w') ∧
      w'.At s' ∧ Stock c replies d s' ∧ ∀ other, s'.memory.path? other
        = if other = version ∧ (kept c replies d version).isOk then some (c.path version)
          else s.memory.path? other := by
  obtain ⟨s', hsettle, hstock', hpaths⟩ := hstock.ends version
  obtain ⟨w', hensure, hw'⟩ := ensure_of_settle hanswers hw hsettle
  exact ⟨s', w', hensure, hw', hstock', hpaths⟩

/-- A call about a version that is known in both worlds ends alike. -/
theorem agrees_ensure {allowed : CompilerError → Prop} {path : String} (hanswers : Answers o c replies)
    (hsafe : Version.isSafe version.toList = true) (hknown : s.memory.path? version = some path)
    (hknown' : s'.memory.path? version = some path) :
    Session.Agrees o s s' allowed (c.ensure version) := by
  intro w w' hw hw'
  obtain ⟨w₁, hensure, hw₁⟩ := ensure_of_known hanswers hw hsafe hknown
  obtain ⟨w₂, hensure', hw₂⟩ := ensure_of_known hanswers hw' hsafe hknown'
  rw [hensure, hensure']
  exact ⟨rfl, hw₁, hw₂, nofun⟩

end Provenance.Cache
