import Provenance.Proofs.Cache.Knowledge

/-!
# Downloads

What a run downloads is told by its history: which calls started a download, and which ended one in an
installed file. No call starts twice, nothing is downloaded that was installed, and a call that does not
yet hold its lock when its version is installed never starts at all.
-/

namespace Provenance.Cache

variable {c : Cache} {version : String} {move : Move} {moves : List Move} {s s' : Shared}
  {before after : List Call} {call x y : Call} {crowd : Crowd} {disk : Disk} {i j : Nat}

/-! ## The history of a run -/

/-- What may happen to a download. Calls are told by their numbers. -/
inductive Event where
  | started (call : Nat) (version : String)
  /-- A download ended in an installed file. -/
  | installed (call : Nat) (version : String)
  deriving DecidableEq, Repr

/-- What happens to a download as a call goes from one stage to another. -/
def Stage.event? (call : Nat) (version : String) : Stage → Stage → Option Event
  | .probing _, .requesting .. => some (.started call version)
  | .renaming _, .recording .. => some (.installed call version)
  | _, _ => none

/-- What happens to a download in a move. -/
def Crowd.event? (c : Cache) (crowd : Crowd) (move : Move) : Option Event := do
  let number ← move.call?
  let call ← crowd.calls[number]?
  let next ← (crowd.play c move).calls[number]?
  call.stage.event? number call.version next.stage

/-- What happens to downloads in a run, in order. -/
def Crowd.history (c : Cache) : Crowd → List Move → List Event
  | _, [] => []
  | crowd, move :: moves => (crowd.event? c move).toList ++ (crowd.play c move).history c moves

theorem Crowd.history_append (crowd : Crowd) (moves more : List Move) :
    crowd.history c (moves ++ more) = crowd.history c moves ++ (crowd.run c moves).history c more := by
  induction moves generalizing crowd with
  | nil => rfl
  | cons move moves ih =>
    simp only [List.cons_append, history, ih, List.append_assoc]
    rfl

theorem Crowd.history_concat (crowd : Crowd) (moves : List Move) (move : Move) :
    crowd.history c (moves ++ [move])
      = crowd.history c moves ++ ((crowd.run c moves).event? c move).toList := by
  rw [history_append, history, history, List.append_nil]

/-- What happens to a download happens to that of the call that moves. -/
theorem Crowd.event?_eq_some {event : Event} (h : crowd.event? c move = some event) :
    ∃ (i : Nat) (x y : Call), crowd.calls[i]? = some x ∧ (crowd.play c move).calls[i]? = some y ∧
      y.version = x.version ∧ x.stage.event? i x.version y.stage = some event ∧
      Transition c x.version move x.stage crowd.shared y.stage (crowd.play c move).shared := by
  simp only [event?, Option.bind_eq_bind, Option.bind_eq_some_iff] at h
  obtain ⟨i, hmove, x, hx, y, hy, hevent⟩ := h
  rcases getElem?_play hy with ⟨hnone, -⟩ | hsame | ⟨x', hx', hversion, -, ht⟩
  · rw [hnone] at hx
    cases hx
  · -- who stays at a stage does nothing
    rw [hsame, Option.some.injEq] at hx
    subst hx
    cases hstage : y.stage <;> simp [hstage, Stage.event?] at hevent
  · rw [hx', Option.some.injEq] at hx
    subst hx
    exact ⟨i, x', y, hx', hy, hversion, hevent, ht⟩

/-- Who starts a download holds its lock, and found nothing on the disk. -/
theorem Crowd.started_cases (h : crowd.event? c move = some (.started i version)) :
    ∃ lock, crowd.calls[i]? = some ⟨version, .probing lock⟩ ∧
      (crowd.play c move).calls[i]? = some ⟨version, .requesting lock (c.url version)⟩ ∧
      crowd.shared.disk.exists? (c.path version) = .ok false := by
  obtain ⟨k, ⟨v, old⟩, ⟨w, new⟩, hx, hy, hversion, hevent, ht⟩ := event?_eq_some h
  dsimp only at hversion hevent ht
  subst hversion
  generalize (crowd.play c move).shared = s' at ht
  cases ht with
  | request missing =>
    obtain ⟨rfl, rfl⟩ : k = i ∧ w = version := by simpa [Stage.event?] using hevent
    exact ⟨_, hx, hy, missing⟩
  | fail => cases old <;> simp [Stage.event?] at hevent
  | stay => cases old <;> simp [Stage.event?] at hevent
  | giveUpHolding => cases old <;> simp [Stage.event?] at hevent
  | _ => simp [Stage.event?] at hevent

/-- Who ends a download in an installed file is about to remember it. -/
theorem Crowd.installed_cases (h : crowd.event? c move = some (.installed i version)) :
    ∃ lock, crowd.calls[i]? = some ⟨version, .renaming lock⟩ ∧
      (crowd.play c move).calls[i]? = some ⟨version, .recording lock true⟩ := by
  obtain ⟨k, ⟨v, old⟩, ⟨w, new⟩, hx, hy, hversion, hevent, ht⟩ := event?_eq_some h
  dsimp only at hversion hevent ht
  subst hversion
  generalize (crowd.play c move).shared = s' at ht
  cases ht with
  | rename renamed =>
    obtain ⟨rfl, rfl⟩ : k = i ∧ w = version := by simpa [Stage.event?] using hevent
    exact ⟨_, hx, hy⟩
  | fail => cases old <;> simp [Stage.event?] at hevent
  | stay => cases old <;> simp [Stage.event?] at hevent
  | giveUpHolding => cases old <;> simp [Stage.event?] at hevent
  | _ => simp [Stage.event?] at hevent

/-! ## No call starts twice -/

/-- Whether a call is beyond the point where it may start a download. -/
def Stage.isPast : Stage → Bool
  | .starting | .looking | .waiting _ | .checking _ | .probing _ => false
  | _ => true

theorem Transition.isPast {stage stage' : Stage} (ht : Transition c version move stage s stage' s')
    (h : stage.isPast = true) : stage'.isPast = true := by
  cases ht <;> first | rfl | exact h

/-- A call that started a download does not come back to where it may start one. -/
theorem Crowd.isPast_of_started (h : .started i version ∈ (start disk).history c moves) :
    ∃ x, ((start disk).run c moves).calls[i]? = some x ∧ x.stage.isPast = true := by
  induction moves using List.reverseRecOn with
  | nil => cases h
  | append_singleton moves move ih =>
    rw [history_concat, List.mem_append, Option.mem_toList] at h
    rw [run_concat]
    rcases h with h | h
    · obtain ⟨x, hx, hpast⟩ := ih h
      obtain ⟨y, hy, -, rfl | ⟨-, ht⟩⟩ := exists_getElem?_play hx move
      · exact ⟨y, hy, hpast⟩
      · exact ⟨y, hy, ht.isPast hpast⟩
    · obtain ⟨lock, -, hy, -⟩ := started_cases h
      exact ⟨_, hy, rfl⟩

/-- No call starts two downloads. -/
theorem Crowd.pairwise_started (disk : Disk) (moves : List Move) :
    ((start disk).history c moves).Pairwise fun a b =>
      ∀ i v w, a = .started i v → b ≠ .started i w := by
  induction moves using List.reverseRecOn with
  | nil => exact .nil
  | append_singleton moves move ih =>
    rw [history_concat, List.pairwise_append]
    refine ⟨ih, ?_, ?_⟩
    · cases Crowd.event? c ((start disk).run c moves) move <;> simp
    · intro a ha b hb i v w hav hbw
      rw [Option.mem_toList] at hb
      rw [hav] at ha
      rw [hbw] at hb
      obtain ⟨x, hx, hpast⟩ := isPast_of_started ha
      obtain ⟨lock, hx', -, -⟩ := started_cases hb
      rw [hx', Option.some.injEq] at hx
      rw [← hx] at hpast
      cases hpast

/-! ## What is installed is not downloaded -/

/-- Whether a call is about to remember the compiler. -/
def Stage.isRecording : Stage → Bool
  | .recording .. => true
  | _ => false

theorem Stage.isRecording_iff {stage : Stage} :
    stage.isRecording = true ↔ ∃ lock isNew, stage = .recording lock isNew := by
  cases stage <;> simp [isRecording]

/-- A version is known to be installed, or a call that knows is about to tell. -/
def Crowd.HasInstalled (crowd : Crowd) (version : String) : Prop :=
  (crowd.shared.memory.path? version).isSome ∨
    ∃ call ∈ crowd.calls, call.version = version ∧ call.stage.isRecording = true

/-- A call does not make the memory forget a version; at most it tells of its own. -/
theorem Transition.path? {stage stage' : Stage} (ht : Transition c version move stage s stage' s')
    (other : String) :
    s'.memory.path? other = s.memory.path? other ∨
      other = version ∧ s'.memory.path? other = some (c.path version) := by
  cases ht with
  | take taken => exact .inl (Memory.path?_of_takeLock taken)
  | record =>
    dsimp only
    rw [Memory.path?_install]
    split
    · next heq => exact .inr ⟨heq, rfl⟩
    · exact .inl rfl
  | leave => exact .inl Memory.path?_forgetLock
  | _ => exact .inl rfl

theorem Crowd.isSome_path?_play (h : (crowd.shared.memory.path? version).isSome) :
    ((crowd.play c move).shared.memory.path? version).isSome := by
  rcases crowd.play_cases c move with ⟨_, -, hplay⟩ | hplay |
    ⟨before, call, after, stage, s, -, -, hplay, ht⟩
  · rwa [hplay]
  · rwa [hplay]
  · rw [hplay]
    dsimp only
    rcases ht.path? version with hsame | ⟨-, hsome⟩
    · rwa [hsame]
    · rw [hsome]
      rfl

/-- A call that is about to tell stays so until it tells. -/
theorem Crowd.recording_play (hx : crowd.calls[i]? = some x) (h : x.stage.isRecording = true) :
    (crowd.play c move).calls[i]? = some x ∨
      ((crowd.play c move).shared.memory.path? x.version).isSome := by
  obtain ⟨lock, isNew, hstage⟩ := Stage.isRecording_iff.1 h
  obtain ⟨⟨version, next⟩, hy, hversion, hsame | ⟨-, ht⟩⟩ := @exists_getElem?_play c crowd i x hx move
  · exact .inl (hsame ▸ hy)
  · dsimp only at hversion
    rw [hstage] at ht
    generalize (crowd.play c move).shared = s' at ht ⊢
    cases ht with
    | stay =>
      left
      rw [hy, hversion, ← hstage]
    | record => exact .inr (by simp)
    | fail fetching => cases fetching
    | giveUpHolding _ fetching => cases fetching

theorem Crowd.HasInstalled.play (h : crowd.HasInstalled version) :
    (crowd.play c move).HasInstalled version := by
  rcases h with h | ⟨x, hx, rfl, hrecording⟩
  · exact .inl (isSome_path?_play h)
  · obtain ⟨i, hi⟩ := List.mem_iff_getElem?.1 hx
    rcases @recording_play c move x crowd i hi hrecording with hsame | hknown
    · exact .inr ⟨x, List.mem_of_getElem? hsame, rfl, hrecording⟩
    · exact .inl hknown

/-- Who ended a download in an installed file has it remembered, or is about to. -/
theorem Crowd.hasInstalled_of_installed (h : .installed i version ∈ (start disk).history c moves) :
    ((start disk).run c moves).HasInstalled version := by
  induction moves using List.reverseRecOn with
  | nil => cases h
  | append_singleton moves move ih =>
    rw [history_concat, List.mem_append, Option.mem_toList] at h
    rw [run_concat]
    rcases h with h | h
    · exact (ih h).play
    · obtain ⟨lock, -, hy⟩ := installed_cases h
      exact .inr ⟨_, List.mem_of_getElem? hy, rfl, rfl⟩

/-- Nothing is downloaded that was installed. -/
theorem Crowd.HasInstalled.not_started (h : crowd.HasInstalled version)
    (hlocks : LocksMatch crowd.calls crowd.shared.memory) (hknown : Knowledge c crowd) :
    crowd.event? c move ≠ some (.started i version) := by
  intro hstarted
  obtain ⟨lock, hi, -, -⟩ := started_cases hstarted
  rcases h with h | ⟨x, hx, hversion, hrecording⟩
  · have hnone := hknown.unknown _ (List.mem_of_getElem? hi) rfl
    dsimp only at hnone
    rw [hnone] at h
    cases h
  · -- both calls would hold the lock of the version
    obtain ⟨j, hj⟩ := List.mem_iff_getElem?.1 hx
    obtain ⟨k, isNew, hstage⟩ := Stage.isRecording_iff.1 hrecording
    have hheld : x.stage.held? = some k := by rw [hstage]; rfl
    obtain rfl := hlocks.holder_unique hi hj hversion rfl hheld
    rw [hi, Option.some.injEq] at hj
    rw [← hj] at hrecording
    cases hrecording

/-- A version that was installed has a safe name. -/
theorem Crowd.HasInstalled.isSafe (h : crowd.HasInstalled version) (hknown : Knowledge c crowd) :
    Version.isSafe version.toList = true := by
  rcases h with h | ⟨x, hx, rfl, hrecording⟩
  · obtain ⟨path, hpath⟩ := Option.isSome_iff_exists.1 h
    exact (hknown.path version path hpath).2
  · obtain ⟨lock, isNew, hstage⟩ := Stage.isRecording_iff.1 hrecording
    exact hknown.safe x hx (by rw [hstage]; rfl)

/-! ## Calls for an installed version -/

namespace Stage

/-- Whether a call has not yet got hold of its lock. -/
def isEarly : Stage → Bool
  | .starting | .looking | .waiting _ => true
  | _ => false

/-- Whether a call is about to look into the memory again. -/
def isChecking : Stage → Bool
  | .checking _ => true
  | _ => false

end Stage

/-- A call gets its compiler without a download: it holds no lock yet, or it finds the compiler
remembered. -/
def Served (c : Cache) (crowd : Crowd) (x : Call) : Prop :=
  x.stage.isEarly = true ∨ (crowd.shared.memory.path? x.version).isSome ∧
    (x.stage.isChecking = true ∨ x.stage.outcome? = some (.ok (c.path x.version)))

/-- Who gets hold of the lock of an installed version finds the compiler remembered. -/
theorem Crowd.HasInstalled.isSome_path? (h : crowd.HasInstalled version)
    (hlocks : LocksMatch crowd.calls crowd.shared.memory) (hx : x ∈ crowd.calls)
    (hversion : x.version = version) {lock : Nat} (href : x.stage.reference? = some lock)
    (hfree : crowd.shared.memory.isHeld lock = false) :
    (crowd.shared.memory.path? version).isSome := by
  rcases h with h | ⟨y, hy, hyversion, hrecording⟩
  · exact h
  · -- the call that is about to tell holds the lock
    obtain ⟨k, isNew, hstage⟩ := Stage.isRecording_iff.1 hrecording
    have hentry := hlocks.entry x hx lock href
    have hkEntry := hlocks.entry y hy k (by rw [hstage]; rfl)
    rw [hyversion, ← hversion, hentry, Option.some.injEq] at hkEntry
    have hheld := (hlocks.isHeld_iff (hlocks.bound _ _ hentry)).2
      ⟨y, hy, by rw [hstage, hkEntry]; rfl⟩
    rw [hfree] at hheld
    cases hheld

theorem Served.play (h : Served c crowd x) (hinstalled : crowd.HasInstalled x.version)
    (hlocks : LocksMatch crowd.calls crowd.shared.memory) (hknown : Knowledge c crowd)
    (hstay : move.isAbandonment = false) (hx : crowd.calls[i]? = some x)
    (hy : (crowd.play c move).calls[i]? = some y) : Served c (crowd.play c move) y := by
  have hmem := List.mem_of_getElem? hx
  have hpath : ∀ path, crowd.shared.memory.path? x.version = some path → path = c.path x.version :=
    fun path hpath => (hknown.path _ path hpath).1
  have hkeeps := @Crowd.isSome_path?_play c x.version move crowd
  obtain ⟨y', hy', hversion, rfl | ⟨-, ht⟩⟩ := @Crowd.exists_getElem?_play c crowd i x hx move
  · obtain rfl : y' = y := by rwa [hy, Option.some.injEq, eq_comm] at hy'
    exact h.imp_right fun h => ⟨hkeeps h.1, h.2⟩
  · obtain rfl : y' = y := by rwa [hy, Option.some.injEq, eq_comm] at hy'
    unfold Served at h ⊢
    rw [hversion]
    have hfree := fun lock => @Crowd.HasInstalled.isSome_path? _ _ _ hinstalled hlocks hmem rfl lock
    generalize (crowd.play c move).shared = s' at ht hkeeps ⊢
    generalize y'.stage = new at ht ⊢
    generalize x.stage = old at ht h hfree ⊢
    cases ht with
    | stay => exact h.imp_right fun h => ⟨hkeeps h.1, h.2⟩
    | refuse unsafeName =>
      rw [hinstalled.isSafe hknown] at unsafeName
      cases unsafeName
    | meet safeName known =>
      exact .inr ⟨by rw [known]; rfl, .inr (by rw [hpath _ known]; rfl)⟩
    | miss => exact .inl rfl
    | take => exact .inl rfl
    | hold free => exact .inr ⟨hfree _ rfl free, .inl rfl⟩
    | meetAgain known =>
      exact .inr ⟨by rw [known]; rfl, .inr (by rw [hpath _ known]; rfl)⟩
    | missAgain unknown => simp [Stage.isEarly, unknown] at h
    | letGo => exact .inr ⟨hkeeps (h.resolve_left nofun).1, (h.resolve_left nofun).2⟩
    | drop => exact .inr ⟨hkeeps (h.resolve_left nofun).1, (h.resolve_left nofun).2⟩
    | leave => exact .inr ⟨hkeeps (h.resolve_left nofun).1, (h.resolve_left nofun).2⟩
    | fail fetching =>
      cases old <;> simp_all [Stage.isEarly, Stage.isChecking, Stage.outcome?, Stage.isFetching]
    | giveUpWaiting givenUp =>
      rw [hstay] at givenUp
      cases givenUp
    | giveUpHolding givenUp =>
      rw [hstay] at givenUp
      cases givenUp
    | _ => simp [Stage.isEarly, Stage.isChecking, Stage.outcome?] at h

/-- A call that is served and has ended has its compiler. -/
theorem Served.result (h : Served c crowd x) {result : Result}
    (hresult : x.stage.result? = some result) : result = .ok (c.path x.version) := by
  unfold Served at h
  cases hstage : x.stage <;> simp_all [Stage.result?, Stage.isEarly, Stage.isChecking, Stage.outcome?]

/-- A call that is served does not start a download. -/
theorem Served.not_started (h : Served c crowd x) (hx : crowd.calls[i]? = some x) :
    crowd.event? c move ≠ some (.started i version) := by
  intro hstarted
  obtain ⟨lock, hprobing, -, -⟩ := Crowd.started_cases hstarted
  rw [hx, Option.some.injEq] at hprobing
  subst hprobing
  simp [Served, Stage.isEarly, Stage.isChecking, Stage.outcome?] at h

/-- Calls that hold no lock when their version was installed, and those that come later, are served
and never start a download. -/
theorem Crowd.served_run {more : List Move}
    (hinstalled : .installed j version ∈ (start disk).history c moves)
    (hearly : ∀ x, ((start disk).run c moves).calls[i]? = some x → x.stage.isEarly = true)
    (hstay : ∀ move ∈ more, move.isAbandonment = false)
    (hy : ((start disk).run c (moves ++ more)).calls[i]? = some y) (hversion : y.version = version) :
    Served c ((start disk).run c (moves ++ more)) y ∧
      ∀ w, .started i w ∉ (start disk).history c (moves ++ more) := by
  induction more using List.reverseRecOn generalizing y with
  | nil =>
    rw [List.append_nil] at hy ⊢
    refine ⟨.inl (hearly y hy), ?_⟩
    intro w hstarted
    obtain ⟨x, hx, hpast⟩ := isPast_of_started hstarted
    have := hearly x hx
    cases hstage : x.stage <;> simp_all [Stage.isEarly, Stage.isPast]
  | append_singleton more move ih =>
    have hmore : ∀ move ∈ more, move.isAbandonment = false :=
      fun move hmove => hstay move (List.mem_append_left _ hmove)
    have hmove : move.isAbandonment = false := hstay move (by simp)
    rw [← List.append_assoc] at hy ⊢
    rw [run_concat] at hy ⊢
    simp only [history_concat, List.mem_append, Option.mem_toList]
    have hhas : ((start disk).run c (moves ++ more)).HasInstalled version := by
      refine @hasInstalled_of_installed c version (moves ++ more) disk j ?_
      rw [history_append]
      exact List.mem_append_left _ hinstalled
    -- a call that comes now is at its start, any other one was served before
    cases hbefore : ((start disk).run c (moves ++ more)).calls[i]? with
    | none =>
      constructor
      · rcases getElem?_play hy with ⟨-, hstage⟩ | hsame | ⟨x, hx, -⟩
        · exact .inl (by rw [hstage]; rfl)
        · rw [hbefore] at hsame
          cases hsame
        · rw [hbefore] at hx
          cases hx
      · rintro w (hstarted | hstarted)
        · obtain ⟨x, hx, -⟩ := isPast_of_started hstarted
          rw [hbefore] at hx
          cases hx
        · obtain ⟨lock, hx, -⟩ := started_cases hstarted
          rw [hbefore] at hx
          cases hx
    | some x =>
      obtain ⟨y', hy', hsame, -⟩ := exists_getElem?_play (c := c) hbefore move
      rw [hy, Option.some.injEq] at hy'
      rw [← hy', hversion] at hsame
      obtain ⟨hserved, hnever⟩ := ih hmore hbefore hsame.symm
      constructor
      · exact hserved.play (hsame ▸ hhas) (.run disk _) (.run disk _) hmove hbefore hy
      · rintro w (hstarted | hstarted)
        · exact hnever w hstarted
        · exact hserved.not_started hbefore hstarted

end Provenance.Cache
