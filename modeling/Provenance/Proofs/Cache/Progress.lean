import Provenance.Proofs.Cache.Downloads

/-!
# Calls for an installed version end

Under a fair schedule, in which every call is advanced again and again, each call about an installed
version comes to its end. What decreases is the number of steps that these calls have left: a new call
finds the compiler remembered and adds none, and of the others one can always go on, the one that holds
the lock or, if nobody does, any that waits for it.
-/

namespace Provenance.Cache

variable {c : Cache} {version : String} {move : Move} {s s' : Shared} {x y : Call} {crowd : Crowd}
  {i n : Nat} {schedule : Nat → Move}

/-! ## Schedules -/

/-- Every call is advanced again and again. -/
def Fair (schedule : Nat → Move) : Prop :=
  ∀ call n, ∃ m ≥ n, ∃ mishap, schedule m = .advance call mishap

/-- A crowd after so many moves of a schedule. -/
def Crowd.after (c : Cache) (crowd : Crowd) (schedule : Nat → Move) (n : Nat) : Crowd :=
  crowd.run c ((List.range n).map schedule)

@[simp] theorem Crowd.after_zero : crowd.after c schedule 0 = crowd := rfl

theorem Crowd.after_succ :
    crowd.after c schedule (n + 1) = (crowd.after c schedule n).play c (schedule n) := by
  rw [after, List.range_succ, List.map_append, List.map_singleton, run_concat]
  rfl

/-- What lasts until a call is advanced, or brings about something else before, brings it about if it
does so when the call is advanced. -/
theorem Fair.leads (hfair : Fair schedule) {P Q : Crowd → Prop} (i : Nat)
    (hlasts : ∀ n, P (crowd.after c schedule n) →
      P (crowd.after c schedule (n + 1)) ∨ Q (crowd.after c schedule (n + 1)))
    (hadvance : ∀ n mishap, schedule n = .advance i mishap → P (crowd.after c schedule n) →
      Q (crowd.after c schedule (n + 1)))
    (n : Nat) (h : P (crowd.after c schedule n)) : ∃ m ≥ n, Q (crowd.after c schedule m) := by
  obtain ⟨m, hm, mishap, hschedule⟩ := hfair i n
  by_contra hnever
  push Not at hnever
  -- so it lasts until the call is advanced
  have hP : ∀ k, P (crowd.after c schedule (n + k)) := by
    intro k
    induction k with
    | zero => exact h
    | succ k ih => exact (hlasts (n + k) ih).resolve_right (hnever (n + k + 1) (by omega))
  obtain ⟨k, rfl⟩ := Nat.exists_eq_add_of_le hm
  exact hnever (n + k + 1) (by omega) (hadvance (n + k) mishap hschedule (hP k))

/-! ## What a crowd keeps once a version is known -/

/-- A crowd that knows a version to be installed. -/
structure Crowd.Settled (c : Cache) (version : String) (crowd : Crowd) : Prop where
  locks : LocksMatch crowd.calls crowd.shared.memory
  knowledge : Knowledge c crowd
  known : (crowd.shared.memory.path? version).isSome

theorem Crowd.Settled.play (h : crowd.Settled c version) (move : Move) :
    (crowd.play c move).Settled c version :=
  ⟨h.locks.play, h.knowledge.play h.locks, isSome_path?_play h.known⟩

theorem Crowd.Settled.after (h : (crowd.after c schedule n).Settled c version) {m : Nat}
    (hm : n ≤ m) : (crowd.after c schedule m).Settled c version := by
  induction hm with
  | refl => exact h
  | step _ ih =>
    rw [after_succ]
    exact ih.play _

/-! ## Steps left -/

/-- How many steps a call has left that finds its version installed. A call at its start ends at once,
and adds none. -/
def Stage.stepsLeft : Stage → Nat
  | .looking => 6
  | .waiting _ => 5
  | .checking _ => 4
  | .releasing .. => 3
  | .dropping .. => 2
  | .leaving _ => 1
  | _ => 0

/-- How many steps the calls about a version have left. -/
def stepsLeft (version : String) : List Call → Nat
  | [] => 0
  | call :: calls =>
    (if call.version = version then call.stage.stepsLeft else 0) + stepsLeft version calls

theorem stepsLeft_split {before after : List Call} {call : Call} :
    stepsLeft version (before ++ call :: after) = stepsLeft version (before ++ after)
      + if call.version = version then call.stage.stepsLeft else 0 := by
  induction before with
  | nil =>
    simp only [List.nil_append, stepsLeft]
    omega
  | cons x before ih =>
    simp only [List.cons_append, stepsLeft, ih]
    omega

theorem stepsLeft_eq_zero_iff {calls : List Call} :
    stepsLeft version calls = 0 ↔
      ∀ call ∈ calls, call.version = version → call.stage.stepsLeft = 0 := by
  induction calls with
  | nil => simp [stepsLeft]
  | cons call calls ih => simp [stepsLeft, ih]

/-- A call about a known version stays, or has fewer steps left, or had none and has none. -/
theorem Transition.stepsLeft {stage stage' : Stage}
    (ht : Transition c version move stage s stage' s') (hknown : (s.memory.path? version).isSome)
    (hinstalling : stage.isInstalling = false) :
    stage' = stage ∨ stage'.stepsLeft < stage.stepsLeft ∨
      stage.stepsLeft = 0 ∧ stage'.stepsLeft = 0 := by
  cases ht with
  | stay => exact .inl rfl
  | refuse => exact .inr (.inr ⟨rfl, rfl⟩)
  | meet => exact .inr (.inr ⟨rfl, rfl⟩)
  | miss _ unknown => simp [unknown] at hknown
  | missAgain unknown => simp [unknown] at hknown
  | fail fetching => cases stage <;> simp_all [Stage.isInstalling, Stage.isFetching]
  | giveUpHolding _ fetching => cases stage <;> simp_all [Stage.isInstalling, Stage.isFetching]
  | _ => simp_all [Stage.stepsLeft, Stage.isInstalling, Stage.isFetching]

/-- A call about a version that has steps left. -/
structure Crowd.Active (crowd : Crowd) (version : String) (i : Nat) (x : Call) : Prop where
  call : crowd.calls[i]? = some x
  version : x.version = version
  steps : 0 < x.stage.stepsLeft

/-- Calls that have no steps left may be exchanged. -/
theorem Crowd.active_split {before after : List Call} {s s' : Shared}
    (hx : x.version = version → x.stage.stepsLeft = 0)
    (hy : y.version = version → y.stage.stepsLeft = 0) {z : Call} :
    Active ⟨before ++ x :: after, s⟩ version i z ↔ Active ⟨before ++ y :: after, s'⟩ version i z := by
  by_cases hi : i = before.length
  · constructor
    · rintro ⟨hcall, hversion, hsteps⟩
      obtain rfl : x = z := by simpa [hi] using hcall
      rw [hx hversion] at hsteps
      cases hsteps
    · rintro ⟨hcall, hversion, hsteps⟩
      obtain rfl : y = z := by simpa [hi] using hcall
      rw [hy hversion] at hsteps
      cases hsteps
  · constructor
    · rintro ⟨hcall, hversion, hsteps⟩
      exact ⟨(getElem?_split hi).symm.trans hcall, hversion, hsteps⟩
    · rintro ⟨hcall, hversion, hsteps⟩
      exact ⟨(getElem?_split hi).trans hcall, hversion, hsteps⟩

/-- A move leaves fewer steps, or the same calls with the same steps. -/
theorem Crowd.Settled.stepsLeft_play (h : crowd.Settled c version) (move : Move) :
    stepsLeft version (crowd.play c move).calls < stepsLeft version crowd.calls ∨
      stepsLeft version (crowd.play c move).calls = stepsLeft version crowd.calls ∧
        ∀ i x, (crowd.play c move).Active version i x ↔ crowd.Active version i x := by
  rcases crowd.play_cases c move with ⟨other, -, hplay⟩ | hplay |
    ⟨before, call, after, stage, s, hcalls, -, hplay, ht⟩
  · -- a new call has no steps left
    rw [hplay]
    refine .inr ⟨?_, fun i x => ⟨?_, ?_⟩⟩
    · rw [stepsLeft_split, List.append_nil]
      simp [Stage.stepsLeft]
    · rintro ⟨hcall, hversion, hsteps⟩
      refine ⟨?_, hversion, hsteps⟩
      rw [List.getElem?_append] at hcall
      split at hcall
      · exact hcall
      · rw [List.mem_singleton.1 (List.mem_of_getElem? hcall)] at hsteps
        cases hsteps
    · rintro ⟨hcall, hversion, hsteps⟩
      refine ⟨?_, hversion, hsteps⟩
      obtain ⟨hlt, -⟩ := List.getElem?_eq_some_iff.1 hcall
      rw [List.getElem?_append_left hlt]
      exact hcall
  · rw [hplay]
    exact .inr ⟨rfl, fun _ _ => .rfl⟩
  · obtain ⟨locks, knowledge, known⟩ := h
    obtain ⟨calls, shared⟩ := crowd
    dsimp only at hcalls known ht
    subst hcalls
    rw [hplay, stepsLeft_split, stepsLeft_split]
    dsimp only
    by_cases hversion : call.version = version
    · have hinstalling : call.stage.isInstalling = false := by
        by_contra hinstalling
        rw [Bool.not_eq_false] at hinstalling
        have hnone := knowledge.unknown call (mem_split.2 (.inl rfl)) hinstalling
        dsimp only at hnone
        rw [hversion] at hnone
        simp [hnone] at known
      rw [if_pos hversion, if_pos hversion]
      rcases ht.stepsLeft (hversion ▸ known) hinstalling with rfl | hless | ⟨hbefore, hafter⟩
      · exact .inr ⟨rfl, fun _ _ => ⟨fun ⟨a, b, d⟩ => ⟨a, b, d⟩, fun ⟨a, b, d⟩ => ⟨a, b, d⟩⟩⟩
      · exact .inl (by omega)
      · exact .inr ⟨by omega, fun _ _ => active_split (fun _ => hafter) fun _ => hbefore⟩
    · rw [if_neg hversion, if_neg hversion]
      refine .inr ⟨rfl, fun _ _ => active_split ?_ ?_⟩
      · exact fun h => absurd h hversion
      · exact fun h => absurd h hversion

/-! ## Some call can go on -/

/-- A call about a version can go on: it does not wait for its lock, or nobody holds this. -/
structure Crowd.Ready (crowd : Crowd) (version : String) (i : Nat) (x : Call) : Prop where
  active : crowd.Active version i x
  free : x.stage.held?.isSome ∨ ∀ j y, crowd.Active version j y → y.stage.held? = none

theorem Crowd.exists_ready (h : 0 < stepsLeft version crowd.calls) : ∃ i x, crowd.Ready version i x := by
  have hpos := mt stepsLeft_eq_zero_iff.2 (Nat.pos_iff_ne_zero.1 h)
  simp only [Classical.not_forall] at hpos
  obtain ⟨x, hx, hversion, hsteps⟩ := hpos
  obtain ⟨i, hi⟩ := List.mem_iff_getElem?.1 hx
  have hactive : crowd.Active version i x := ⟨hi, hversion, Nat.pos_iff_ne_zero.2 hsteps⟩
  by_cases hholder : ∃ j y, crowd.Active version j y ∧ y.stage.held?.isSome
  · obtain ⟨j, y, hy, hheld⟩ := hholder
    exact ⟨j, y, hy, .inl hheld⟩
  · refine ⟨i, x, hactive, .inr ?_⟩
    intro j y hy
    cases hheld : y.stage.held? with
    | none => rfl
    | some lock => exact absurd ⟨j, y, hy, by rw [hheld]; rfl⟩ hholder

/-- Nobody holds the lock for which a call waits that can go on. -/
theorem Crowd.Settled.free (h : crowd.Settled c version) (hready : crowd.Ready version i x) {lock : Nat}
    (hstage : x.stage = .waiting lock) : crowd.shared.memory.isHeld lock = false := by
  by_contra hheld
  rw [Bool.not_eq_false] at hheld
  have hx := List.mem_of_getElem? hready.active.call
  have hentry := h.locks.entry x hx lock (by rw [hstage]; rfl)
  obtain ⟨y, hy, hholds⟩ := (h.locks.isHeld_iff (h.locks.bound _ _ hentry)).1 hheld
  have hyEntry := h.locks.entry y hy lock (Stage.reference?_of_held? hholds)
  have hversion : y.version = version :=
    (h.locks.apart _ _ _ hyEntry hentry).trans hready.active.version
  obtain ⟨j, hj⟩ := List.mem_iff_getElem?.1 hy
  have hinstalling : y.stage.isInstalling = false := by
    by_contra hinstalling
    rw [Bool.not_eq_false] at hinstalling
    have hnone := h.knowledge.unknown y hy hinstalling
    rw [hversion] at hnone
    have hknown := h.known
    simp [hnone] at hknown
  have hsteps : 0 < y.stage.stepsLeft := by
    cases hy : y.stage <;> simp_all [Stage.held?, Stage.stepsLeft, Stage.isInstalling, Stage.isFetching]
  rcases hready.free with hfree | hfree
  · rw [hstage] at hfree
    cases hfree
  · rw [hfree j y ⟨hj, hversion, hsteps⟩] at hholds
    cases hholds

theorem Crowd.getElem?_advance (h : crowd.calls[i]? = some x) (mishap : Option Mishap) :
    (crowd.play c (.advance i mishap)).calls[i]?
      = some ⟨x.version, (step c x.version mishap x.stage crowd.shared).1⟩ := by
  simp [play, h, moveTo]

theorem Crowd.shared_advance (h : crowd.calls[i]? = some x) (mishap : Option Mishap) :
    (crowd.play c (.advance i mishap)).shared
      = (step c x.version mishap x.stage crowd.shared).2 := by
  simp [play, h, moveTo]

/-- A call that can go on does so when it is advanced. -/
theorem Crowd.Settled.stepsLeft_advance (h : crowd.Settled c version)
    (hready : crowd.Ready version i x) (mishap : Option Mishap) :
    stepsLeft version (crowd.play c (.advance i mishap)).calls < stepsLeft version crowd.calls := by
  refine (h.stepsLeft_play _).resolve_right ?_
  rintro ⟨-, hsame⟩
  obtain ⟨hcall, hversion, hsteps⟩ := hready.active
  -- otherwise it would be at the same stage
  have hnext := ((hsame i x).2 hready.active).call
  rw [getElem?_advance hcall, Option.some.injEq] at hnext
  have hstage : (step c x.version mishap x.stage crowd.shared).1 = x.stage := congrArg Call.stage hnext
  obtain ⟨path, hpath⟩ := Option.isSome_iff_exists.1 h.known
  cases hold : x.stage with
  | waiting lock => simp [hold, step, h.free hready hold] at hstage
  | checking lock => simp [hold, step, hversion, hpath] at hstage
  | _ => simp_all [step, Stage.stepsLeft]

/-- A call that can go on still can, unless there are fewer steps left. -/
theorem Crowd.Settled.ready_play (h : crowd.Settled c version) (hready : crowd.Ready version i x)
    (move : Move) :
    stepsLeft version (crowd.play c move).calls < stepsLeft version crowd.calls ∨
      stepsLeft version (crowd.play c move).calls = stepsLeft version crowd.calls ∧
        (crowd.play c move).Ready version i x := by
  refine (h.stepsLeft_play move).imp_right ?_
  rintro ⟨hsteps, hsame⟩
  refine ⟨hsteps, (hsame i x).2 hready.active, hready.free.imp_right ?_⟩
  exact fun hfree j y hy => hfree j y ((hsame j y).1 hy)

/-! ## All calls end -/

/-- After some time there are fewer steps left, if there are any. -/
theorem Fair.exists_stepsLeft_lt (hfair : Fair schedule)
    (h : (crowd.after c schedule n).Settled c version)
    (hpos : 0 < stepsLeft version (crowd.after c schedule n).calls) :
    ∃ m ≥ n, stepsLeft version (crowd.after c schedule m).calls
      < stepsLeft version (crowd.after c schedule n).calls := by
  obtain ⟨i, x, hready⟩ := Crowd.exists_ready hpos
  generalize hk : stepsLeft version (crowd.after c schedule n).calls = k
  refine hfair.leads
    (P := fun crowd => crowd.Settled c version ∧ stepsLeft version crowd.calls = k ∧
      crowd.Ready version i x)
    (Q := fun crowd => stepsLeft version crowd.calls < k) i ?_ ?_ n ⟨h, hk, hready⟩
  · rintro m ⟨hsettled, rfl, hready⟩
    rw [Crowd.after_succ]
    rcases hsettled.ready_play hready (schedule m) with hless | hsame
    · exact .inr hless
    · exact .inl ⟨hsettled.play _, hsame⟩
  · rintro m mishap hschedule ⟨hsettled, rfl, hready⟩
    rw [Crowd.after_succ, hschedule]
    exact hsettled.stepsLeft_advance hready mishap

/-- After some time no call about a known version has steps left. -/
theorem Fair.exists_stepsLeft_eq_zero (hfair : Fair schedule) (n : Nat)
    (h : (crowd.after c schedule n).Settled c version) :
    ∃ m ≥ n, stepsLeft version (crowd.after c schedule m).calls = 0 := by
  induction hk : stepsLeft version (crowd.after c schedule n).calls using Nat.strongRecOn
    generalizing n with
  | ind k ih =>
    rcases Nat.eq_zero_or_pos k with hzero | hpos
    · exact ⟨n, Nat.le_refl n, hk.trans hzero⟩
    · obtain ⟨m, hm, hless⟩ := hfair.exists_stepsLeft_lt h (hk ▸ hpos)
      obtain ⟨l, hl, hend⟩ := ih _ (hk ▸ hless) m (h.after hm) rfl
      exact ⟨l, Nat.le_trans hm hl, hend⟩

/-- After some time a version that was installed is known. -/
theorem Fair.exists_known (hfair : Fair schedule)
    (h : (crowd.after c schedule n).HasInstalled version) :
    ∃ m ≥ n, ((crowd.after c schedule m).shared.memory.path? version).isSome := by
  rcases h with h | ⟨x, hx, rfl, hrecording⟩
  · exact ⟨n, Nat.le_refl n, h⟩
  · obtain ⟨i, hi⟩ := List.mem_iff_getElem?.1 hx
    refine hfair.leads
      (P := fun crowd => crowd.calls[i]? = some x)
      (Q := fun crowd => (crowd.shared.memory.path? x.version).isSome) i ?_ ?_ n hi
    · intro m hsame
      rw [Crowd.after_succ]
      exact Crowd.recording_play hsame hrecording
    · intro m mishap hschedule hsame
      obtain ⟨lock, isNew, hstage⟩ := Stage.isRecording_iff.1 hrecording
      rw [Crowd.after_succ, hschedule, Crowd.shared_advance hsame, hstage]
      simp [step]

/-- A call at its start for a known version ends with its path. -/
theorem Fair.exists_met (hfair : Fair schedule)
    (h : (crowd.after c schedule n).Settled c version)
    (hi : (crowd.after c schedule n).calls[i]? = some ⟨version, .starting⟩) :
    ∃ m ≥ n, (crowd.after c schedule m).calls[i]? = some ⟨version, .done (.ok (c.path version))⟩ := by
  -- one step is left
  have hstep : ∀ {crowd : Crowd} (mishap : Option Mishap), crowd.Settled c version →
      (step c version mishap .starting crowd.shared).1 = .done (.ok (c.path version)) := by
    intro crowd mishap h
    obtain ⟨path, hpath⟩ := Option.isSome_iff_exists.1 h.known
    obtain ⟨rfl, hsafe⟩ := h.knowledge.path version path hpath
    simp [step, hsafe, hpath]
  refine hfair.leads
    (P := fun crowd => crowd.Settled c version ∧ crowd.calls[i]? = some ⟨version, .starting⟩)
    (Q := fun crowd => crowd.calls[i]? = some ⟨version, .done (.ok (c.path version))⟩)
    i ?_ ?_ n ⟨h, hi⟩
  · rintro m ⟨hsettled, hsame⟩
    rw [Crowd.after_succ]
    obtain ⟨⟨version, next⟩, hy, hversion, hstays | ⟨-, ht⟩⟩ :=
      @Crowd.exists_getElem?_play c _ _ _ hsame (schedule m)
    · exact .inl ⟨hsettled.play _, hstays ▸ hy⟩
    · dsimp only at hversion ht
      subst hversion
      rw [hy]
      generalize (Crowd.play c _ _).shared = s' at ht
      cases ht with
      | stay => exact .inl ⟨hsettled.play _, rfl⟩
      | refuse unsafeName =>
        obtain ⟨path, hpath⟩ := Option.isSome_iff_exists.1 hsettled.known
        rw [(hsettled.knowledge.path _ path hpath).2] at unsafeName
        cases unsafeName
      | meet _ known => exact .inr (by rw [(hsettled.knowledge.path _ _ known).1])
      | miss _ unknown =>
        have hknown := hsettled.known
        rw [unknown] at hknown
        cases hknown
      | fail fetching => cases fetching
      | giveUpHolding _ fetching => cases fetching
  · rintro m mishap hschedule ⟨hsettled, hsame⟩
    rw [Crowd.after_succ, hschedule, Crowd.getElem?_advance hsame, hstep mishap hsettled]

/-- No call goes away. -/
theorem Crowd.exists_getElem?_after (h : (crowd.after c schedule n).calls[i]? = some x) {m : Nat}
    (hm : n ≤ m) :
    ∃ y, (crowd.after c schedule m).calls[i]? = some y ∧ y.version = x.version := by
  induction hm with
  | refl => exact ⟨x, h, rfl⟩
  | @step m _ ih =>
    obtain ⟨y, hy, hversion⟩ := ih
    obtain ⟨z, hz, hsame, -⟩ := @exists_getElem?_play c _ _ _ hy (schedule m)
    exact ⟨z, by rwa [after_succ], hsame.trans hversion⟩

/-- A call that is served and has no steps left has its compiler, or has not begun. -/
theorem Served.cases_of_stepsLeft (h : Served c crowd x) (hsteps : x.stage.stepsLeft = 0) :
    x.stage = .starting ∨ ∃ result, x.stage = .done result := by
  unfold Served at h
  cases hstage : x.stage with
  | starting => exact .inl rfl
  | done result => exact .inr ⟨result, rfl⟩
  | _ => simp_all [Stage.isEarly, Stage.isChecking, Stage.outcome?, Stage.stepsLeft]

/-- A call that is served as long as it is on the way ends with its compiler's path. -/
theorem Fair.exists_done (hfair : Fair schedule)
    (h : (crowd.after c schedule n).Settled c version)
    (hi : (crowd.after c schedule n).calls[i]? = some x) (hversion : x.version = version)
    (hserved : ∀ m y, (crowd.after c schedule m).calls[i]? = some y → y.version = version →
      Served c (crowd.after c schedule m) y) :
    ∃ m, (crowd.after c schedule m).calls[i]? = some ⟨version, .done (.ok (c.path version))⟩ := by
  obtain ⟨m, hm, hzero⟩ := hfair.exists_stepsLeft_eq_zero n h
  obtain ⟨⟨w, stage⟩, hy, hsame⟩ := Crowd.exists_getElem?_after hi hm
  obtain rfl : w = version := hsame.trans hversion
  have hsteps : stage.stepsLeft = 0 :=
    stepsLeft_eq_zero_iff.1 hzero _ (List.mem_of_getElem? hy) rfl
  have hserved := hserved m _ hy rfl
  rcases hserved.cases_of_stepsLeft hsteps with hstage | ⟨result, hstage⟩
  · dsimp only at hstage
    subst hstage
    obtain ⟨l, -, hl⟩ := hfair.exists_met (h.after hm) hy
    exact ⟨l, hl⟩
  · dsimp only at hstage
    subst hstage
    refine ⟨m, ?_⟩
    rw [hy, hserved.result rfl]

end Provenance.Cache
