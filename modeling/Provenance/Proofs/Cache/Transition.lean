import Provenance.Cache.Crowd

/-!
# What a move does

A move of a crowd either brings a new call, or changes nothing, or takes one call from a stage to
another. `Transition` lists what the latter may be; all that is proved about crowds is proved by going
through this list.
-/

namespace Provenance.Cache

namespace Stage

/-- Whether a call holds its lock and has not yet found or renamed the compiler. -/
def isFetching : Stage → Bool
  | .probing _ | .requesting .. | .writing .. | .marking _ | .renaming _ => true
  | _ => false

theorem reference?_of_held? {stage : Stage} {lock : Nat} (h : stage.held? = some lock) :
    stage.reference? = some lock := by
  cases stage <;> simp_all [held?, reference?]

theorem address?_eq_some_iff {stage : Stage} {address : String} :
    stage.address? = some address ↔ ∃ lock, stage = .requesting lock address := by
  cases stage <;> simp [address?]

end Stage

namespace Move

/-- The call that moves; none if a new one comes. -/
def call? : Move → Option Nat
  | .arrive _ => none
  | .advance number _ | .reply number _ | .abandon number => some number

/-- The reply that a move brings. -/
def reply? : Move → Option (Except Http.TransferError Http.Reply)
  | .reply _ result => some result
  | _ => none

/-- Whether a move gives up a call. -/
def isAbandonment : Move → Bool
  | .abandon _ => true
  | _ => false

end Move

/-- What a move may make of a call about a version and of what is shared. -/
inductive Transition (c : Cache) (version : String) (move : Move) :
    Stage → Shared → Stage → Shared → Prop
  /-- The call has ended, or waits for its lock or for a reply. -/
  | stay {stage s} : Transition c version move stage s stage s
  | refuse {s} (unsafeName : Version.isSafe version.toList = false) :
    Transition c version move .starting s (.done (.error (.invalidVersion version))) s
  | meet {s path} (safeName : Version.isSafe version.toList = true)
    (known : s.memory.path? version = some path) :
    Transition c version move .starting s (.done (.ok path)) s
  | miss {s} (safeName : Version.isSafe version.toList = true)
    (unknown : s.memory.path? version = none) :
    Transition c version move .starting s .looking s
  | take {s lock memory} (taken : s.memory.takeLock version = (lock, memory)) :
    Transition c version move .looking s (.waiting lock) { s with memory }
  | hold {s lock} (free : s.memory.isHeld lock = false) :
    Transition c version move (.waiting lock) s (.checking lock) { s with memory := s.memory.hold lock }
  | meetAgain {s lock path} (known : s.memory.path? version = some path) :
    Transition c version move (.checking lock) s (.releasing lock (.ok path)) s
  | missAgain {s lock} (unknown : s.memory.path? version = none) :
    Transition c version move (.checking lock) s (.probing lock) s
  | find {s lock} (found : s.disk.exists? (c.path version) = .ok true) :
    Transition c version move (.probing lock) s (.recording lock false) s
  /-- The call starts a download. -/
  | request {s lock} (missing : s.disk.exists? (c.path version) = .ok false) :
    Transition c version move (.probing lock) s (.requesting lock (c.url version)) s
  | receive {s lock address reply content} (replied : move.reply? = some reply)
    (brought : downloaded version reply = .ok content) :
    Transition c version move (.requesting lock address) s (.writing lock content) s
  | write {s lock content disk}
    (written : s.disk.write (c.partialPath version) content = .ok disk) :
    Transition c version move (.writing lock content) s (.marking lock) { s with disk }
  | mark {s lock disk}
    (marked : s.disk.setMode (c.partialPath version) Disk.programMode = .ok disk) :
    Transition c version move (.marking lock) s (.renaming lock) { s with disk }
  /-- The download ends in an installed file. -/
  | rename {s lock disk}
    (renamed : s.disk.rename (c.partialPath version) (c.path version) = .ok disk) :
    Transition c version move (.renaming lock) s (.recording lock true) { s with disk }
  | record {s lock isNew} :
    Transition c version move (.recording lock isNew) s (.releasing lock (.ok (c.path version)))
      { s with memory := s.memory.install version (c.path version) }
  | fail {stage s lock error} (fetching : stage.isFetching = true)
    (held : stage.held? = some lock) :
    Transition c version move stage s (.releasing lock (.error error)) s
  /-- A part of the content was written. -/
  | failWriting {s lock content n error disk}
    (written : s.disk.write (c.partialPath version) (content.take n) = .ok disk) :
    Transition c version move (.writing lock content) s (.releasing lock (.error error)) { s with disk }
  | letGo {s lock result} :
    Transition c version move (.releasing lock result) s (.dropping lock result)
      { s with memory := s.memory.letGo lock }
  | drop {s lock result} :
    Transition c version move (.dropping lock result) s (.leaving result)
      { s with memory := s.memory.dropClone lock }
  | leave {s result} :
    Transition c version move (.leaving result) s (.done result)
      { s with memory := s.memory.forgetLock version }
  /-- The call is given up while it waits for its lock. -/
  | giveUpWaiting {s lock} (givenUp : move.isAbandonment = true) :
    Transition c version move (.waiting lock) s .abandoned { s with memory := s.memory.dropClone lock }
  /-- The call is given up while it holds its lock. -/
  | giveUpHolding {stage s lock} (givenUp : move.isAbandonment = true)
    (fetching : stage.isFetching = true)
    (held : stage.held? = some lock) :
    Transition c version move stage s .abandoned
      { s with memory := (s.memory.letGo lock).dropClone lock }

/-! ## Every move is in the list -/

section
variable {c : Cache} {version : String} {move : Move}

/-- What a change of the disk did, or that it failed and the disk is as it was. -/
theorem changing_cases {mishap : Option Mishap} {operation : Disk → Except IoFault Disk} {d : Disk} :
    (∃ d', operation d = .ok d' ∧ d.changing mishap operation = (.ok (), d')) ∨
      ∃ fault, d.changing mishap operation = (.error fault, d) := by
  unfold Disk.changing Disk.asking
  cases mishap with
  | some m => exact .inr ⟨_, rfl⟩
  | none =>
    cases h : operation d with
    | ok d' => exact .inl ⟨d', rfl, rfl⟩
    | error fault => exact .inr ⟨fault, rfl⟩

/-- What writing did: all of it, a part of it or nothing. -/
theorem writing_cases {mishap : Option Mishap} {path : String} {content : Bytes} {d : Disk} :
    (∃ d', d.write path content = .ok d' ∧ d.writing mishap path content = (.ok (), d')) ∨
      (∃ n fault d', d.write path (content.take n) = .ok d' ∧
        d.writing mishap path content = (.error fault, d')) ∨
      ∃ fault, d.writing mishap path content = (.error fault, d) := by
  unfold Disk.writing
  split
  · rcases @changing_cases none (Disk.write path content) d with ⟨d', hd, h⟩ | ⟨fault, h⟩
    · exact .inl ⟨d', hd, h⟩
    · exact .inr (.inr ⟨fault, h⟩)
  · next m =>
    cases m.written with
    | none => exact .inr (.inr ⟨m.fault, rfl⟩)
    | some n =>
      refine .inr ?_
      dsimp only
      rcases @changing_cases none (Disk.write path (content.take n)) d with ⟨d', hd, h⟩ | ⟨fault, h⟩
      · exact .inl ⟨n, m.fault, d', hd, by rw [h]⟩
      · exact .inr ⟨fault, by rw [h]⟩

/-- A step is a transition. -/
theorem transition_step (mishap : Option Mishap) (stage : Stage) (s : Shared) :
    Transition c version move stage s (step c version mishap stage s).1
      (step c version mishap stage s).2 := by
  cases stage with
  | starting =>
    cases hsafe : Version.isSafe version.toList with
    | false => simpa [step, hsafe] using .refuse hsafe
    | true =>
      cases hpath : s.memory.path? version with
      | some path => simpa [step, hsafe, hpath] using .meet hsafe hpath
      | none => simpa [step, hsafe, hpath] using .miss hsafe hpath
  | looking => exact .take rfl
  | waiting lock =>
    cases hheld : s.memory.isHeld lock with
    | true => simpa [step, hheld] using .stay
    | false => simpa [step, hheld] using .hold hheld
  | checking lock =>
    cases hpath : s.memory.path? version with
    | some path => simpa [step, hpath] using .meetAgain hpath
    | none => simpa [step, hpath] using .missAgain hpath
  | probing lock =>
    cases mishap with
    | some m => exact .fail rfl rfl
    | none =>
      cases hexists : s.disk.exists? (c.path version) with
      | error fault => simpa [step, Disk.asking, hexists] using .fail rfl rfl
      | ok isThere =>
        cases isThere with
        | true => simpa [step, Disk.asking, hexists] using .find hexists
        | false => simpa [step, Disk.asking, hexists] using .request hexists
  | requesting lock address => exact .stay
  | writing lock content =>
    rcases @writing_cases mishap (c.partialPath version) content s.disk with
      ⟨d', hd, h⟩ | ⟨n, fault, d', hd, h⟩ | ⟨fault, h⟩
    · simpa [step, h] using .write hd
    · simpa [step, h] using .failWriting hd
    · simpa [step, h] using .fail rfl rfl
  | marking lock =>
    rcases @changing_cases mishap (Disk.setMode (c.partialPath version) Disk.programMode) s.disk with
      ⟨d', hd, h⟩ | ⟨fault, h⟩
    · simpa [step, h] using .mark hd
    · simpa [step, h] using .fail rfl rfl
  | «renaming» lock =>
    rcases @changing_cases mishap (Disk.rename (c.partialPath version) (c.path version)) s.disk with
      ⟨d', hd, h⟩ | ⟨fault, h⟩
    · simpa [step, h] using .rename hd
    · simpa [step, h] using .fail rfl rfl
  | recording lock isNew => exact .record
  | releasing lock result => exact .letGo
  | dropping lock result => exact .drop
  | leaving result => exact .leave
  | done result => exact .stay
  | abandoned => exact .stay

/-- A call asks at the address of its version. -/
theorem Transition.address? {stage stage' : Stage} {s s' : Shared} {address : String}
    (ht : Transition c version move stage s stage' s') (h : stage'.address? = some address) :
    address = c.url version ∨ stage.address? = some address := by
  cases ht with
  | stay => exact .inr h
  | request => exact .inl (Option.some.inj h).symm
  | _ => cases h

/-- Receiving a reply is a transition. -/
theorem transition_receive {reply : Except Http.TransferError Http.Reply}
    (replied : move.reply? = some reply) (stage : Stage) (s : Shared) :
    Transition c version move stage s (receive version reply stage) s := by
  cases stage with
  | requesting lock address =>
    cases hreply : downloaded version reply with
    | ok content => simpa [receive, hreply] using .receive replied hreply
    | error e => simpa [receive, hreply] using .fail rfl rfl
  | _ => exact .stay

/-- Being given up is a transition. -/
theorem transition_abandon (givenUp : move.isAbandonment = true) (stage : Stage) (s : Shared) :
    Transition c version move stage s (abandon stage s.memory).1
      { s with memory := (abandon stage s.memory).2 } := by
  cases stage with
  | waiting lock => exact .giveUpWaiting givenUp
  | probing lock => exact .giveUpHolding givenUp rfl rfl
  | requesting lock address => exact .giveUpHolding givenUp rfl rfl
  | writing lock content => exact .giveUpHolding givenUp rfl rfl
  | marking lock => exact .giveUpHolding givenUp rfl rfl
  | «renaming» lock => exact .giveUpHolding givenUp rfl rfl
  | _ => exact .stay

end

/-- One call of a crowd goes on in a move, the others stay where they are. -/
def Crowd.GoesOn (c : Cache) (move : Move) (crowd crowd' : Crowd) : Prop :=
  ∃ before call after stage s,
    crowd.calls = before ++ call :: after ∧ move.call? = some before.length ∧
      crowd' = ⟨before ++ ⟨call.version, stage⟩ :: after, s⟩ ∧
      Transition c call.version move call.stage crowd.shared stage s

theorem Crowd.goesOn_moveTo {c : Cache} {crowd : Crowd} {move : Move} {number : Nat} {call : Call}
    {stage : Stage} {s : Shared} (hcall : crowd.calls[number]? = some call)
    (hmove : move.call? = some number)
    (ht : Transition c call.version move call.stage crowd.shared stage s) :
    crowd.GoesOn c move (crowd.moveTo number stage s) := by
  obtain ⟨hlt, hget⟩ := List.getElem?_eq_some_iff.1 hcall
  obtain ⟨before, found, after, hcalls, hlen, hmodify⟩ :=
    List.exists_of_modify (fun call : Call => { call with stage }) hlt
  obtain rfl : found = call := by
    rw [hcalls, ← hlen] at hcall
    simpa using hcall
  exact ⟨before, found, after, stage, s, hcalls, by rw [hmove, hlen], by rw [moveTo, hmodify], ht⟩

/-- In a move a call comes, or nothing happens, or one call goes on. -/
theorem Crowd.play_cases (c : Cache) (crowd : Crowd) (move : Move) :
    (∃ version, move = .arrive version ∧
        crowd.play c move = ⟨crowd.calls ++ [⟨version, .starting⟩], crowd.shared⟩) ∨
      crowd.play c move = crowd ∨ crowd.GoesOn c move (crowd.play c move) := by
  cases move with
  | arrive version => exact .inl ⟨version, rfl, rfl⟩
  | advance number mishap =>
    refine .inr ?_
    cases hcall : crowd.calls[number]? with
    | none => exact .inl (by simp [play, hcall])
    | some call =>
      have hgoes : crowd.GoesOn c (.advance number mishap) _ :=
        goesOn_moveTo hcall rfl (transition_step mishap call.stage crowd.shared)
      exact .inr (by simpa [play, hcall] using hgoes)
  | reply number reply =>
    refine .inr ?_
    cases hcall : crowd.calls[number]? with
    | none => exact .inl (by simp [play, hcall])
    | some call =>
      have hgoes : crowd.GoesOn c (.reply number reply) _ :=
        goesOn_moveTo hcall rfl (transition_receive rfl call.stage crowd.shared)
      exact .inr (by simpa [play, hcall] using hgoes)
  | abandon number =>
    refine .inr ?_
    cases hcall : crowd.calls[number]? with
    | none => exact .inl (by simp [play, hcall])
    | some call =>
      have hgoes : crowd.GoesOn c (.abandon number) _ :=
        goesOn_moveTo hcall rfl (transition_abandon rfl call.stage crowd.shared)
      exact .inr (by simpa [play, hcall] using hgoes)

theorem getElem?_split {before after : List Call} {x y : Call} {i : Nat} (h : i ≠ before.length) :
    (before ++ x :: after)[i]? = (before ++ y :: after)[i]? := by
  rcases Nat.lt_or_gt_of_ne h with hlt | hgt
  · rw [List.getElem?_append_left hlt, List.getElem?_append_left hlt]
  · rw [List.getElem?_append_right (Nat.le_of_lt hgt), List.getElem?_append_right (Nat.le_of_lt hgt)]
    obtain ⟨k, hk⟩ := Nat.exists_eq_succ_of_ne_zero (Nat.sub_ne_zero_of_lt hgt)
    rw [hk, List.getElem?_cons_succ, List.getElem?_cons_succ]

/-- A call after a move: it is new, or it stayed where it was, or it is the one that went on. -/
theorem Crowd.getElem?_play {c : Cache} {crowd : Crowd} {move : Move} {i : Nat} {y : Call}
    (h : (crowd.play c move).calls[i]? = some y) :
    (crowd.calls[i]? = none ∧ y.stage = .starting) ∨ crowd.calls[i]? = some y ∨
      ∃ x, crowd.calls[i]? = some x ∧ y.version = x.version ∧ move.call? = some i ∧
        Transition c x.version move x.stage crowd.shared y.stage (crowd.play c move).shared := by
  rcases crowd.play_cases c move with ⟨version, -, hplay⟩ | hplay |
    ⟨before, call, after, stage, s, hcalls, hmove, hplay, ht⟩
  · rw [hplay, List.getElem?_append] at h
    split at h
    · exact .inr (.inl h)
    · next hge =>
      refine .inl ⟨List.getElem?_eq_none (Nat.le_of_not_lt hge), ?_⟩
      rw [List.mem_singleton.1 (List.mem_of_getElem? h)]
  · rw [hplay] at h
    exact .inr (.inl h)
  · rw [hplay] at h ⊢
    by_cases hi : i = before.length
    · obtain rfl : ⟨call.version, stage⟩ = y := by simpa [hi] using h
      exact .inr (.inr ⟨call, by simp [hcalls, hi], rfl, by rw [hmove, hi], ht⟩)
    · exact .inr (.inl (by rwa [hcalls, getElem?_split hi]))

/-- No call goes away: it stays where it is or goes on. -/
theorem Crowd.exists_getElem?_play {c : Cache} {crowd : Crowd} {i : Nat} {x : Call}
    (h : crowd.calls[i]? = some x) (move : Move) :
    ∃ y, (crowd.play c move).calls[i]? = some y ∧ y.version = x.version ∧
      (y = x ∨ move.call? = some i ∧
        Transition c x.version move x.stage crowd.shared y.stage (crowd.play c move).shared) := by
  have hlen : crowd.calls.length ≤ (crowd.play c move).calls.length := by
    rcases crowd.play_cases c move with ⟨version, -, hplay⟩ | hplay |
      ⟨before, call, after, stage, s, hcalls, -, hplay, -⟩
    · simp [hplay]
    · simp [hplay]
    · simp [hplay, hcalls]
  obtain ⟨hlt, -⟩ := List.getElem?_eq_some_iff.1 h
  have hy := List.getElem?_eq_getElem (Nat.lt_of_lt_of_le hlt hlen)
  refine ⟨_, hy, ?_⟩
  rcases getElem?_play hy with ⟨hnone, -⟩ | hsame | ⟨x', hx', hversion, hmove, ht⟩
  · rw [hnone] at h
    cases h
  · rw [h, Option.some.injEq] at hsame
    exact ⟨by rw [hsame], .inl hsame.symm⟩
  · obtain rfl : x' = x := by rwa [hx', Option.some.injEq] at h
    exact ⟨hversion, .inr ⟨hmove, ht⟩⟩

theorem Crowd.run_append (c : Cache) (crowd : Crowd) (moves more : List Move) :
    crowd.run c (moves ++ more) = (crowd.run c moves).run c more :=
  List.foldl_append

theorem Crowd.run_concat (c : Cache) (crowd : Crowd) (moves : List Move) (move : Move) :
    crowd.run c (moves ++ [move]) = (crowd.run c moves).play c move :=
  run_append c crowd moves [move]

end Provenance.Cache
