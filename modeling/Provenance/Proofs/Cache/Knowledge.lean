import Provenance.Proofs.Cache.Locks

/-!
# What a cache knows

What the memory tells about a version is where its compiler is to be, and calls end with what the memory
tells. A call that installs a compiler does so for a version of which the memory knows nothing
(`Knowledge`): it holds the version's lock, and whoever else might have told the memory would have to hold
it too.
-/

namespace Provenance.Cache

variable {c : Cache} {version : String} {move : Move} {stage : Stage} {s s' : Shared}
  {before after : List Call} {call : Call} {crowd : Crowd}

namespace Stage

/-- Whether a call holds its lock and is about to find, download or remember the compiler. -/
def isInstalling : Stage → Bool
  | .recording .. => true
  | stage => stage.isFetching

/-- Whether a call found its version in order and has not come to an end. -/
def isAdmitted : Stage → Bool
  | .looking => true
  | stage => stage.reference?.isSome

/-- How a call is going to end, when this is settled. -/
def outcome? : Stage → Option Result
  | .releasing _ result | .dropping _ result | .leaving result | .done result => some result
  | _ => none

theorem isSome_held?_of_isInstalling {stage : Stage} (h : stage.isInstalling = true) :
    ∃ lock, stage.held? = some lock := by
  cases stage <;> simp_all [isInstalling, isFetching, held?]

theorem isAdmitted_of_isFetching {stage : Stage} (h : stage.isFetching = true) :
    stage.isAdmitted = true := by
  cases stage <;> simp_all [isFetching, isAdmitted, reference?]

end Stage

/-- The memory tells the truth, and calls go by it. -/
structure Knowledge (c : Cache) (crowd : Crowd) : Prop where
  /-- What is known about a version is the place of its compiler. -/
  path : ∀ version path, crowd.shared.memory.path? version = some path →
    path = c.path version ∧ Version.isSafe version.toList = true
  /-- Calls go on with safe names only. -/
  safe : ∀ call ∈ crowd.calls, call.stage.isAdmitted = true →
    Version.isSafe call.version.toList = true
  /-- What is about to be installed is not yet known. -/
  unknown : ∀ call ∈ crowd.calls, call.stage.isInstalling = true →
    crowd.shared.memory.path? call.version = none
  /-- A call that ends well ends with what is known. -/
  outcome : ∀ call ∈ crowd.calls, ∀ path, call.stage.outcome? = some (.ok path) →
    crowd.shared.memory.path? call.version = some path

namespace Knowledge

theorem start (disk : Disk) : Knowledge c (.start disk) where
  path _ _ h := by simp [Crowd.start, Memory.empty, Memory.path?, Dictionary.get?] at h
  safe _ h := by simp [Crowd.start] at h
  unknown _ h := by simp [Crowd.start] at h
  outcome _ h := by simp [Crowd.start] at h

theorem arrive {calls : List Call} (h : Knowledge c ⟨calls, s⟩) :
    Knowledge c ⟨calls ++ [⟨version, .starting⟩], s⟩ where
  path := h.path
  safe := List.forall_mem_append.2 ⟨h.safe, List.forall_mem_singleton.2 nofun⟩
  unknown := List.forall_mem_append.2 ⟨h.unknown, List.forall_mem_singleton.2 nofun⟩
  outcome := List.forall_mem_append.2 ⟨h.outcome, List.forall_mem_singleton.2 nofun⟩

/-- A call goes on, and the memory knows what it knew. -/
theorem keep (h : Knowledge c ⟨before ++ call :: after, s⟩)
    (hpaths : ∀ version, s'.memory.path? version = s.memory.path? version)
    (hsafe : stage.isAdmitted = true → Version.isSafe call.version.toList = true)
    (hunknown : stage.isInstalling = true → s.memory.path? call.version = none)
    (houtcome : ∀ path, stage.outcome? = some (.ok path) → s.memory.path? call.version = some path) :
    Knowledge c ⟨before ++ ⟨call.version, stage⟩ :: after, s'⟩ where
  path version path hpath := h.path version path (hpaths version ▸ hpath)
  safe := forall_mem_split.2 ⟨hsafe, (forall_mem_split.1 h.safe).2⟩
  unknown := by
    simp only [hpaths]
    exact forall_mem_split.2 ⟨hunknown, (forall_mem_split.1 h.unknown).2⟩
  outcome := by
    simp only [hpaths]
    exact forall_mem_split.2 ⟨houtcome, (forall_mem_split.1 h.outcome).2⟩

/-- A call that installs a compiler remembers it. -/
theorem record (h : Knowledge c ⟨before ++ call :: after, s⟩)
    (hlocks : LocksMatch (before ++ call :: after) s.memory) {lock : Nat} {isNew : Bool}
    (hstage : call.stage = .recording lock isNew) :
    Knowledge c ⟨before ++ ⟨call.version, .releasing lock (.ok (c.path call.version))⟩ :: after,
      { s with memory := s.memory.install call.version (c.path call.version) }⟩ := by
  obtain ⟨hsafe, hothersSafe⟩ := forall_mem_split.1 h.safe
  obtain ⟨hnone, hunknown⟩ := forall_mem_split.1 h.unknown
  obtain ⟨-, houtcome⟩ := forall_mem_split.1 h.outcome
  replace hsafe : Version.isSafe call.version.toList = true := hsafe (by rw [hstage]; rfl)
  replace hnone : s.memory.path? call.version = none := hnone (by rw [hstage]; rfl)
  have hheld : call.stage.held? = some lock := by rw [hstage]; rfl
  refine ⟨?_, forall_mem_split.2 ⟨fun _ => hsafe, hothersSafe⟩,
    forall_mem_split.2 ⟨nofun, fun x hx hinstalling => ?_⟩,
    forall_mem_split.2 ⟨fun path hpath => ?_, fun x hx path hpath => ?_⟩⟩
  · intro version path hpath
    rw [Memory.path?_install] at hpath
    split at hpath
    · next heq =>
      rw [heq]
      exact ⟨(Option.some.inj hpath).symm, hsafe⟩
    · exact h.path version path hpath
  · -- another call about this version does not hold the lock
    obtain ⟨k, hk⟩ := Stage.isSome_held?_of_isInstalling hinstalling
    rw [Memory.path?_install, if_neg (hlocks.version_ne hheld hx hk)]
    exact hunknown x hx hinstalling
  · rw [Memory.path?_install, if_pos rfl]
    simpa [Stage.outcome?] using hpath
  · have hknown := houtcome x hx path hpath
    rw [Memory.path?_install, if_neg]
    · exact hknown
    · intro hversion
      rw [hversion, hnone] at hknown
      cases hknown

/-- Whatever a call does, the memory tells the truth. -/
theorem transition (h : Knowledge c ⟨before ++ call :: after, s⟩)
    (hlocks : LocksMatch (before ++ call :: after) s.memory)
    (ht : Transition c call.version move call.stage s stage s') :
    Knowledge c ⟨before ++ ⟨call.version, stage⟩ :: after, s'⟩ := by
  have hcall : call ∈ before ++ call :: after := mem_split.2 (.inl rfl)
  have hsafe := h.safe call hcall
  have hunknown := h.unknown call hcall
  have houtcome := h.outcome call hcall
  obtain ⟨version, old⟩ := call
  dsimp only at ht hsafe hunknown houtcome ⊢
  cases ht with
  | stay => exact h.keep (fun _ => rfl) hsafe hunknown houtcome
  | refuse => exact h.keep (fun _ => rfl) nofun nofun nofun
  | meet safeName known =>
    refine h.keep (fun _ => rfl) nofun nofun ?_
    rintro path ⟨⟩
    exact known
  | miss safeName => exact h.keep (fun _ => rfl) (fun _ => safeName) nofun nofun
  | take taken =>
    exact h.keep (fun _ => Memory.path?_of_takeLock taken) (fun _ => hsafe rfl) nofun nofun
  | hold => exact h.keep (fun _ => rfl) (fun _ => hsafe rfl) nofun nofun
  | meetAgain known =>
    refine h.keep (fun _ => rfl) (fun _ => hsafe rfl) nofun ?_
    rintro path ⟨⟩
    exact known
  | missAgain unknown => exact h.keep (fun _ => rfl) (fun _ => hsafe rfl) (fun _ => unknown) nofun
  | record => exact h.record hlocks rfl
  | fail fetching held =>
    have hadmitted := Stage.isAdmitted_of_isFetching fetching
    exact h.keep (fun _ => rfl) (fun _ => hsafe hadmitted) nofun nofun
  | failWriting => exact h.keep (fun _ => rfl) (fun _ => hsafe rfl) nofun nofun
  | letGo => exact h.keep (fun _ => rfl) (fun _ => hsafe rfl) nofun houtcome
  | drop => exact h.keep (fun _ => rfl) nofun nofun houtcome
  | leave => exact h.keep (fun _ => Memory.path?_forgetLock) nofun nofun houtcome
  | giveUpWaiting => exact h.keep (fun _ => rfl) nofun nofun nofun
  | giveUpHolding => exact h.keep (fun _ => rfl) nofun nofun nofun
  | _ => exact h.keep (fun _ => rfl) (fun _ => hsafe rfl) (fun _ => hunknown rfl) nofun

theorem play (h : Knowledge c crowd) (hlocks : LocksMatch crowd.calls crowd.shared.memory) :
    Knowledge c (crowd.play c move) := by
  rcases crowd.play_cases c move with ⟨version, -, hplay⟩ | hplay |
    ⟨before, call, after, stage, s, hcalls, -, hplay, ht⟩
  · rw [hplay]
    exact h.arrive
  · rw [hplay]
    exact h
  · obtain ⟨calls, shared⟩ := crowd
    dsimp only at hcalls
    subst hcalls
    rw [hplay]
    exact h.transition hlocks ht

/-- In a run from a new cache the memory tells the truth at any time. -/
theorem run (disk : Disk) (moves : List Move) : Knowledge c ((Crowd.start disk).run c moves) := by
  induction moves using List.reverseRecOn with
  | nil => exact start disk
  | append_singleton moves move ih =>
    rw [Crowd.run_concat]
    exact ih.play (.run disk moves)

end Knowledge

end Provenance.Cache
