import Provenance.Proofs.Cache.Renumbering

/-!
# Versions do not disturb each other

Moves of calls about different versions may change places (`Crowd.Undisturbed`): the crowd is the same in
the end, but for the numbers of locks that are made, and neither call can go on in one order and not in the
other. Since who holds a lock is always on its way, a call that waits for one never waits for nobody.
-/

namespace Provenance.Cache

variable {c : Cache} {crowd : Crowd} {a b move : Move} {x y : Call} {i j : Nat} {stage : Stage}
  {s : Shared} {σ : Equiv.Perm Nat}

namespace Crowd

/-! ## Enabled moves -/

/-- A move is enabled if its call goes on to another stage by it. -/
def Enables (c : Cache) (crowd : Crowd) (move : Move) : Prop :=
  ∃ x y, crowd.mover? move = some x ∧ (crowd.play c move).mover? move = some y ∧ y.stage ≠ x.stage

theorem enables_iff (hmove : move.call? = some i) (hcall : crowd.calls[i]? = some x) :
    crowd.Enables c move ↔ (move.act c x crowd.shared).1 ≠ x.stage := by
  have hmover : crowd.mover? move = some x := mover?_eq_some_iff.2 ⟨i, hmove, hcall⟩
  have hnext : (crowd.play c move).mover? move
      = some { x with stage := (move.act c x crowd.shared).1 } := by
    refine mover?_eq_some_iff.2 ⟨i, hmove, ?_⟩
    rw [play_eq hmove hcall, getElem?_moveTo, if_pos rfl, hcall]
    rfl
  simp [Enables, hmover, hnext]

/-! ## Two moves -/

/-- Locks that two moves make get the numbers that they get in the other order, and the locks that were
there keep theirs. -/
theorem exists_perm (n : Nat) (p q : Bool) : ∃ σ : Equiv.Perm Nat, (∀ number < n, σ number = number) ∧
    (p = true → σ n = n + if q then 1 else 0) ∧ (q = true → σ (n + if p then 1 else 0) = n) := by
  cases p with
  | false => exact ⟨Equiv.refl Nat, fun _ _ => rfl, nofun, fun _ => rfl⟩
  | true => cases q with
    | false => exact ⟨Equiv.refl Nat, fun _ _ => rfl, fun _ => rfl, nofun⟩
    | true =>
      refine ⟨Equiv.swap n (n + 1), ?_, fun _ => Equiv.swap_apply_left _ _,
        fun _ => Equiv.swap_apply_right _ _⟩
      intro number hlt
      exact Equiv.swap_apply_of_ne_of_ne (by omega) (by omega)

/-- Two moves of calls about different versions, and what holds before and after each of them. -/
structure Pair (c : Cache) (crowd : Crowd) (a b : Move) (i j : Nat) (x y : Call) : Prop where
  left : a.call? = some i
  right : b.call? = some j
  leftCall : crowd.calls[i]? = some x
  rightCall : crowd.calls[j]? = some y
  ne : x.version ≠ y.version
  sound : crowd.Sound c
  soundLeft : (crowd.play c a).Sound c
  soundRight : (crowd.play c b).Sound c

namespace Pair

theorem symm (h : Pair c crowd a b i j x y) : Pair c crowd b a j i y x :=
  ⟨h.right, h.left, h.rightCall, h.leftCall, h.ne.symm, h.sound, h.soundRight, h.soundLeft⟩

theorem index_ne (h : Pair c crowd a b i j x y) : i ≠ j := by
  rintro rfl
  have hsame := h.leftCall.symm.trans h.rightCall
  exact h.ne (congrArg Call.version (Option.some.inj hsame))

theorem play_left (h : Pair c crowd a b i j x y) : crowd.play c a
    = crowd.moveTo i (a.act c x crowd.shared).1 (a.act c x crowd.shared).2 :=
  play_eq h.left h.leftCall

theorem shared_left (h : Pair c crowd a b i j x y) :
    (crowd.play c a).shared = (a.act c x crowd.shared).2 := by
  rw [h.play_left]
  rfl

/-- The other call stays where it is. -/
theorem getElem?_left (h : Pair c crowd a b i j x y) : (crowd.play c a).calls[j]? = some y := by
  rw [h.play_left, getElem?_moveTo, if_neg h.index_ne.symm, h.rightCall]

theorem fits_left (h : Pair c crowd a b i j x y) : y.Fits c (a.act c x crowd.shared).2 := by
  rw [← h.shared_left]
  exact h.soundLeft.fits y (List.mem_of_getElem? h.getElem?_left)

/-- Both calls have gone on. -/
theorem play_play (h : Pair c crowd a b i j x y) : (crowd.play c a).play c b
    = (crowd.moveTo i (a.act c x crowd.shared).1 (a.act c x crowd.shared).2).moveTo j
        (b.act c y (a.act c x crowd.shared).2).1 (b.act c y (a.act c x crowd.shared).2).2 := by
  rw [play_eq h.right h.getElem?_left, h.shared_left, h.play_left]

theorem touches_left (h : Pair c crowd a b i j x y) :
    c.Touches x.version crowd.shared.disk (a.act c x crowd.shared).2.disk :=
  transition_act.touches (h.sound.fits x (List.mem_of_getElem? h.leftCall))

theorem touches_right (h : Pair c crowd a b i j x y) :
    c.Touches y.version (a.act c x crowd.shared).2.disk
      (b.act c y (a.act c x crowd.shared).2).2.disk :=
  transition_act.touches h.fits_left

theorem names (h : Pair c crowd a b i j x y) :
    c.SameNames crowd.shared.disk (b.act c y (a.act c x crowd.shared).2).2.disk :=
  h.touches_left.names.trans h.touches_right.names

theorem current (h : Pair c crowd a b i j x y) :
    (b.act c y (a.act c x crowd.shared).2).2.disk.current = crowd.shared.disk.current :=
  h.touches_right.directories.current.trans h.touches_left.directories.current

/-- What is at no place of the two versions stays. -/
theorem get?_of_not_isPlace (h : Pair c crowd a b i j x y) {place : Place}
    (hx : ¬c.IsPlace x.version crowd.shared.disk place)
    (hy : ¬c.IsPlace y.version crowd.shared.disk place) :
    (b.act c y (a.act c x crowd.shared).2).2.disk.get? place = crowd.shared.disk.get? place := by
  rw [h.touches_right.get?, h.touches_left.get? place hx]
  rwa [h.touches_left.names.isPlace_iff]

/-- What is shown of other versions than these two stays. -/
theorem sameFor_of_ne (h : Pair c crowd a b i j x y) {version : String} (hx : version ≠ x.version)
    (hy : version ≠ y.version) :
    Shared.SameFor c id version crowd.shared (b.act c y (a.act c x crowd.shared).2).2 := by
  have hfirst : Shared.SameFor c id version crowd.shared (a.act c x crowd.shared).2 :=
    (h.sound.fits x (List.mem_of_getElem? h.leftCall)).sameFor_act h.sound.locks hx a
  have hlocks := h.soundLeft.locks
  rw [h.shared_left] at hlocks
  exact hfirst.trans (h.fits_left.sameFor_act hlocks hy b)

/-- What is shown of the version of the call that moves first stays when the other one moves. -/
theorem sameFor_left (h : Pair c crowd a b i j x y) : Shared.SameFor c id x.version
    (a.act c x crowd.shared).2 (b.act c y (a.act c x crowd.shared).2).2 := by
  have hlocks := h.soundLeft.locks
  rw [h.shared_left] at hlocks
  exact h.fits_left.sameFor_act hlocks h.ne b

end Pair

/-- Two calls that move in either order: each goes on to the same stage, and what is shown of its version is
the same. -/
structure Square (c : Cache) (σ : Equiv.Perm Nat) (a b : Move) (x y : Call) (s : Shared) : Prop where
  /-- Locks that are there keep their numbers. -/
  fixed : ∀ version number, s.memory.lockOf? version = some number → σ number = number
  left : (a.act c x (b.act c y s).2).1 = (a.act c x s).1.renumber σ
  right : (b.act c y s).1 = (b.act c y (a.act c x s).2).1.renumber σ
  leftSame : Shared.SameFor c σ x.version (a.act c x s).2 (a.act c x (b.act c y s).2).2
  rightSame : Shared.SameFor c σ y.version (b.act c y (a.act c x s).2).2 (b.act c y s).2

namespace Pair

theorem exists_square (h : Pair c crowd a b i j x y) : ∃ σ, Square c σ a b x y crowd.shared := by
  have hxMem := List.mem_of_getElem? h.leftCall
  have hyMem := List.mem_of_getElem? h.rightCall
  have hx := h.sound.fits x hxMem
  have hsameX : Shared.SameFor c id x.version crowd.shared (b.act c y crowd.shared).2 :=
    (h.sound.fits y hyMem).sameFor_act h.sound.locks h.ne b
  have hsameY : Shared.SameFor c id y.version crowd.shared (a.act c x crowd.shared).2 :=
    hx.sameFor_act h.sound.locks h.ne.symm a
  obtain ⟨σ, hlt, hnewX, hnewY⟩ := exists_perm crowd.shared.memory.locks.length
    (a.makesLock x crowd.shared.memory) (b.makesLock y crowd.shared.memory)
  have hfixed : ∀ version number, crowd.shared.memory.lockOf? version = some number →
      σ number = number :=
    fun version number hnumber => hlt number (h.sound.locks.bound version number hnumber)
  have hselfX : x.renumber σ = x := h.sound.renumber_eq_self hxMem hfixed
  have hselfY : y.renumber σ = y := h.sound.renumber_eq_self hyMem hfixed
  -- the first call, before and after the move of the second
  have hlenX : a.makesLock x crowd.shared.memory = true →
      σ crowd.shared.memory.locks.length = (b.act c y crowd.shared).2.memory.locks.length := by
    rw [length_locks_act]
    exact hnewX
  have hleft := hx.act (hselfX.symm ▸ h.symm.fits_left) (hsameX.renumber (hfixed x.version)) a hlenX
  -- the second call, after and before the move of the first
  have hlenY : b.makesLock y (a.act c x crowd.shared).2.memory = true →
      σ (a.act c x crowd.shared).2.memory.locks.length = crowd.shared.memory.locks.length := by
    rw [length_locks_act, hsameY.makesLock]
    exact hnewY
  have hfixedY : ∀ number, (a.act c x crowd.shared).2.memory.lockOf? y.version = some number →
      σ number = number := by
    intro number hnumber
    rw [hsameY.memory.table, Option.map_id_fun] at hnumber
    exact hfixed y.version number hnumber
  have hright := h.fits_left.act (hselfY.symm ▸ h.sound.fits y hyMem) (hsameY.symm.renumber hfixedY)
    b hlenY
  rw [hselfX] at hleft
  rw [hselfY] at hright
  exact ⟨σ, hfixed, hleft.1, hright.1, hleft.2, hright.2⟩

/-- Every version is shown the same in both orders. -/
theorem sameFor (h : Pair c crowd a b i j x y)
    (hsquare : Square c σ a b x y crowd.shared) (version : String) :
    Shared.SameFor c σ version (b.act c y (a.act c x crowd.shared).2).2
      (a.act c x (b.act c y crowd.shared).2).2 := by
  by_cases hx : version = x.version
  · subst hx
    exact h.sameFor_left.symm.trans hsquare.leftSame
  · by_cases hy : version = y.version
    · subst hy
      exact hsquare.rightSame.trans h.symm.sameFor_left
    · have hsame := h.sameFor_of_ne hx hy
      refine (hsame.symm.trans (h.symm.sameFor_of_ne hy hx)).renumber fun number hnumber => ?_
      rw [hsame.memory.table, Option.map_id_fun] at hnumber
      exact hsquare.fixed version number hnumber

theorem calls_eq (h : Pair c crowd a b i j x y)
    (hsquare : Square c σ a b x y crowd.shared) :
    ((crowd.play c b).play c a).calls
      = ((crowd.play c a).play c b).calls.map (Call.renumber σ) := by
  rw [h.play_play, h.symm.play_play]
  refine List.ext_getElem? fun k => ?_
  rw [List.getElem?_map]
  simp only [getElem?_moveTo]
  by_cases hi : k = i
  · subst hi
    simp [h.index_ne, h.leftCall, Call.renumber, hsquare.left]
  · by_cases hj : k = j
    · subst hj
      simp [h.index_ne.symm, h.rightCall, Call.renumber, hsquare.right]
    · simp only [hi, hj, if_false]
      cases hz : crowd.calls[k]? with
      | none => rfl
      | some z =>
        have hself := h.sound.renumber_eq_self (List.mem_of_getElem? hz) hsquare.fixed
        rw [Option.map_some, hself]

/-- The same stands at every place of the disk in both orders. -/
theorem get?_eq (h : Pair c crowd a b i j x y)
    (hsquare : Square c σ a b x y crowd.shared) (place : Place) :
    (a.act c x (b.act c y crowd.shared).2).2.disk.get? place
      = (b.act c y (a.act c x crowd.shared).2).2.disk.get? place := by
  by_cases hx : c.IsPlace x.version crowd.shared.disk place
  · exact (h.sameFor hsquare x.version).files.get? place (h.names.isPlace_iff.2 hx)
  · by_cases hy : c.IsPlace y.version crowd.shared.disk place
    · exact (h.sameFor hsquare y.version).files.get? place (h.names.isPlace_iff.2 hy)
    · rw [h.get?_of_not_isPlace hx hy, h.symm.get?_of_not_isPlace hy hx]

/-- The crowd is the same in both orders, but for the numbers of locks. -/
theorem exists_alike (h : Pair c crowd a b i j x y) :
    ∃ σ, Alike σ ((crowd.play c a).play c b) ((crowd.play c b).play c a) := by
  obtain ⟨σ, hsquare⟩ := h.exists_square
  refine ⟨σ, h.calls_eq hsquare, ?_, ?_, ?_⟩
  · intro version
    rw [h.play_play, h.symm.play_play]
    exact (h.sameFor hsquare version).memory
  · rw [h.play_play, h.symm.play_play]
    exact h.symm.current.trans h.current.symm
  · intro place
    rw [h.play_play, h.symm.play_play]
    exact h.get?_eq hsquare place

/-- A move of one call enables no move of the other, and disables none. -/
theorem enables_iff (h : Pair c crowd a b i j x y) :
    (crowd.play c a).Enables c b ↔ crowd.Enables c b := by
  obtain ⟨σ, hsquare⟩ := h.exists_square
  have hself := h.sound.renumber_eq_self (List.mem_of_getElem? h.rightCall) hsquare.fixed
  rw [Crowd.enables_iff h.right h.getElem?_left, Crowd.enables_iff h.right h.rightCall, h.shared_left,
    hsquare.right]
  refine not_congr ?_
  -- a stage that stays is renumbered to itself
  have hstage : y.stage.renumber σ = y.stage := congrArg Call.stage hself
  conv_rhs => rw [← hstage]
  exact (Stage.renumber_injective σ.injective).eq_iff.symm

end Pair

theorem exists_pair (disk : Disk) (moves : List Move)
    (hx : ((start disk).run c moves).mover? a = some x)
    (hy : ((start disk).run c moves).mover? b = some y) (hne : x.version ≠ y.version) :
    ∃ i j, Pair c ((start disk).run c moves) a b i j x y := by
  have hnext : ∀ move, (((start disk).run c moves).play c move).Sound c := by
    intro move
    rw [← run_concat]
    exact sound_run disk _
  obtain ⟨i, hi, hx⟩ := mover?_eq_some_iff.1 hx
  obtain ⟨j, hj, hy⟩ := mover?_eq_some_iff.1 hy
  exact ⟨i, j, hi, hj, hx, hy, hne, sound_run disk moves, hnext a, hnext b⟩

/-- Two runs that differ in the order of two neighbouring moves of calls about different versions end
alike. -/
theorem exists_alike_run (disk : Disk) (moves more : List Move)
    (hx : ((start disk).run c moves).mover? a = some x)
    (hy : ((start disk).run c moves).mover? b = some y) (hne : x.version ≠ y.version) :
    ∃ σ, Alike σ (((((start disk).run c moves).play c a).play c b).run c more)
      (((((start disk).run c moves).play c b).play c a).run c more) := by
  obtain ⟨i, j, hpair⟩ := exists_pair disk moves hx hy hne
  obtain ⟨σ, halike⟩ := hpair.exists_alike
  rw [← run_concat, ← run_concat, ← run_concat, ← run_concat] at halike ⊢
  simpa only [run, List.foldl_append] using halike.run more

/-! ## Some call can go on -/

/-- A call can go on: by itself, whatever goes wrong then, or with a reply, whichever this is. -/
def CanGoOn (c : Cache) (crowd : Crowd) (i : Nat) : Prop :=
  (∀ mishap, crowd.Enables c (.advance i mishap)) ∨ ∀ reply, crowd.Enables c (.reply i reply)

/-- A call on its way goes on when it is advanced, unless it waits. -/
theorem step_ne {version : String} (mishap : Option Mishap)
    (hwaiting : ∀ lock, stage = .waiting lock → s.memory.isHeld lock = false)
    (hrequesting : stage.address? = none) (hresult : stage.result? = none)
    (habandoned : stage ≠ .abandoned) : (step c version mishap stage s).1 ≠ stage := by
  cases stage with
  | waiting lock => simp [step, hwaiting lock rfl]
  | requesting lock address => cases hrequesting
  | done result => cases hresult
  | abandoned => exact absurd rfl habandoned
  | starting =>
    simp only [step]
    split
    · simp
    · split <;> simp
  | looking | recording | releasing | dropping | leaving => simp [step]
  | _ =>
    -- where it goes depends on what it finds, but it does not stay
    simp only [step]
    split <;> simp

/-- A reply to its download lets a call go on. -/
theorem receive_ne {version address : String} {lock : Nat} (reply : Except Http.TransferError Http.Reply) :
    receive version reply (.requesting lock address) ≠ .requesting lock address := by
  simp only [receive]
  split <;> simp

/-- A call on its way can go on, unless another call holds its lock. -/
theorem canGoOn (hx : crowd.calls[i]? = some x) (hresult : x.stage.result? = none)
    (habandoned : x.stage ≠ .abandoned)
    (hwaiting : ∀ lock, x.stage = .waiting lock → crowd.shared.memory.isHeld lock = false) :
    crowd.CanGoOn c i := by
  cases hrequesting : x.stage.address? with
  | some address =>
    obtain ⟨lock, hstage⟩ := Stage.address?_eq_some_iff.1 hrequesting
    refine .inr fun reply => (enables_iff rfl hx).2 ?_
    rw [hstage]
    simpa [Move.act, hstage] using receive_ne reply
  | none =>
    exact .inl fun mishap => (enables_iff rfl hx).2
      (step_ne mishap hwaiting hrequesting hresult habandoned)

/-- A call on its way can go on, or waits for its lock, which another call about its version holds, and
this can go on. -/
theorem Sound.exists_canGoOn (h : crowd.Sound c) (hx : crowd.calls[i]? = some x)
    (hresult : x.stage.result? = none) (habandoned : x.stage ≠ .abandoned) :
    crowd.CanGoOn c i ∨ ∃ lock j y, x.stage = .waiting lock ∧ crowd.calls[j]? = some y ∧
      y.version = x.version ∧ y.stage.held? = some lock ∧ crowd.CanGoOn c j := by
  by_cases hblocked : ∃ lock, x.stage = .waiting lock ∧ crowd.shared.memory.isHeld lock = true
  · obtain ⟨lock, hstage, hheld⟩ := hblocked
    have hentry := h.locks.entry x (List.mem_of_getElem? hx) lock (by rw [hstage]; rfl)
    obtain ⟨y, hy, hholds⟩ := (h.locks.isHeld_iff (h.locks.bound _ _ hentry)).1 hheld
    have hyEntry := h.locks.entry y hy lock (Stage.reference?_of_held? hholds)
    obtain ⟨j, hj⟩ := List.mem_iff_getElem?.1 hy
    refine .inr ⟨lock, j, y, hstage, hj, h.locks.apart _ _ _ hyEntry hentry, hholds, ?_⟩
    -- who holds a lock neither waits for it nor has ended
    refine canGoOn hj ?_ ?_ ?_
    · cases hold : y.stage <;> simp_all [Stage.held?, Stage.result?]
    · rintro hold
      simp [hold, Stage.held?] at hholds
    · intro k hold
      simp [hold, Stage.held?] at hholds
  · refine .inl (canGoOn hx hresult habandoned fun lock hstage => ?_)
    rw [← Bool.not_eq_true]
    exact fun hheld => hblocked ⟨lock, hstage, hheld⟩

/-- Calls about different versions neither block nor disturb each other. -/
structure Undisturbed (c : Cache) (crowd : Crowd) : Prop where
  /-- In whichever order calls about two versions move, the crowd is the same in the end, but for the
  numbers of locks, and so it is whatever moves follow. -/
  commute : ∀ (a b : Move) (x y : Call) (more : List Move), crowd.mover? a = some x → crowd.mover? b = some y →
    x.version ≠ y.version →
      ∃ σ, Alike σ (((crowd.play c a).play c b).run c more) (((crowd.play c b).play c a).run c more)
  /-- What one of them does lets the other go on neither more nor less. -/
  enabled : ∀ (a b : Move) (x y : Call), crowd.mover? a = some x → crowd.mover? b = some y →
    x.version ≠ y.version → ((crowd.play c a).Enables c b ↔ crowd.Enables c b)
  /-- A call that is on its way can go on, or waits for the lock of its version, and then the call that
  holds this can go on. -/
  live : ∀ (i : Nat) (x : Call), crowd.calls[i]? = some x → x.stage.result? = none →
    x.stage ≠ .abandoned →
    crowd.CanGoOn c i ∨ ∃ lock j y, x.stage = .waiting lock ∧ crowd.calls[j]? = some y ∧
      y.version = x.version ∧ y.stage.held? = some lock ∧ crowd.CanGoOn c j

end Crowd

/-- In a run from a new cache calls about different versions never disturb each other. -/
theorem undisturbed_run (disk : Disk) (moves : List Move) :
    ((Crowd.start disk).run c moves).Undisturbed c where
  commute a b x y more hx hy hne := Crowd.exists_alike_run disk moves more hx hy hne
  enabled a b x y hx hy hne := by
    obtain ⟨i, j, hpair⟩ := Crowd.exists_pair disk moves hx hy hne
    exact hpair.enables_iff
  live i x hx := (Crowd.sound_run disk moves).exists_canGoOn hx

/-- Two calls that look for their locks at once make them in the order in which they move, so that the
numbers of these are exchanged. -/
theorem undisturbed_run_of_two :
    let c : Cache := ⟨"/cache", "http://host/"⟩
    let crowd := (Crowd.start ⟨[(["cache"], .directory)], []⟩).run c
      [.arrive "v1", .arrive "v2", .advance 0 none, .advance 1 none]
    let crowd₁ := (crowd.play c (.advance 0 none)).play c (.advance 1 none)
    let crowd₂ := (crowd.play c (.advance 1 none)).play c (.advance 0 none)
    crowd₁.shared.memory.lockOf? "v1" = some 0 ∧ crowd₂.shared.memory.lockOf? "v1" = some 1 ∧
      ∃ σ, crowd₁.Alike σ crowd₂ ∧ σ 0 = 1 := by
  intro c crowd crowd₁ crowd₂
  have hfirst : crowd₁.shared.memory.lockOf? "v1" = some 0 := by decide +kernel
  have hsecond : crowd₂.shared.memory.lockOf? "v1" = some 1 := by decide +kernel
  have hx : crowd.mover? (.advance 0 none) = some ⟨"v1", .looking⟩ := by rfl
  have hy : crowd.mover? (.advance 1 none) = some ⟨"v2", .looking⟩ := by rfl
  have hundisturbed : crowd.Undisturbed c := undisturbed_run _ _
  obtain ⟨σ, (halike : crowd₁.Alike σ crowd₂)⟩ := hundisturbed.commute _ _ _ _ [] hx hy (by decide)
  refine ⟨hfirst, hsecond, σ, halike, ?_⟩
  have htable := (halike.memory "v1").table
  rw [hfirst, hsecond] at htable
  exact (Option.some.inj htable).symm

end Provenance.Cache
