import Provenance.Proofs.Cache.Files
import Provenance.Proofs.Cache.Progress

/-!
# The cache is truthful

What the cache tells to be installed is there, complete, and stays as it is. A call that fails leaves no
trace of this, so that the next one tries again.
-/

namespace Provenance.Cache

variable {c : Cache} {disk : Disk} {version : String} {move : Move} {moves : List Move}
  {stage : Stage} {s s' : Shared} {call x : Call} {crowd : Crowd} {i : Nat}

/-! ## Calls that fail -/

/-- Whether a call has found or installed its compiler. -/
def Stage.hasCompiler : Stage → Bool
  | .recording .. => true
  | stage =>
    match stage.outcome? with
    | some (.ok _) => true
    | _ => false

theorem Transition.hasCompiler {stage stage' : Stage}
    (ht : Transition c version move stage s stage' s') (h : stage.hasCompiler = true) :
    stage'.hasCompiler = true := by
  cases ht with
  | fail fetching => cases stage <;> simp_all [Stage.hasCompiler, Stage.isFetching, Stage.outcome?]
  | giveUpHolding _ fetching =>
    cases stage <;> simp_all [Stage.hasCompiler, Stage.isFetching, Stage.outcome?]
  | _ => first | exact h | rfl

/-- A call that has its compiler does not lose it. -/
theorem Crowd.hasCompiler_run (hcall : crowd.calls[i]? = some call)
    (h : call.stage.hasCompiler = true) (moves : List Move) :
    ∃ x, (crowd.run c moves).calls[i]? = some x ∧ x.stage.hasCompiler = true := by
  induction moves using List.reverseRecOn with
  | nil => exact ⟨call, hcall, h⟩
  | append_singleton moves move ih =>
    obtain ⟨x, hx, hcompiler⟩ := ih
    rw [run_concat]
    obtain ⟨y, hy, -, rfl | ⟨-, ht⟩⟩ := exists_getElem?_play (c := c) hx move
    · exact ⟨y, hy, hcompiler⟩
    · exact ⟨y, hy, ht.hasCompiler hcompiler⟩

/-- Two crowds know the same, and the versions' files are the same. -/
structure SameState (c : Cache) (crowd crowd' : Crowd) : Prop where
  memory : ∀ version, crowd'.shared.memory.path? version = crowd.shared.memory.path? version
  files : ∀ version, Version.isSafe version.toList = true → ∀ result,
    crowd'.shared.disk.find (c.path version) = .ok result ↔
      crowd.shared.disk.find (c.path version) = .ok result

/-- A move of a call that does not have its compiler afterwards changes neither what is known nor the
files of versions. -/
theorem sameState_play (hknown : Knowledge c crowd) (hmove : move.call? = some i)
    (hafter : ∀ x, (crowd.play c move).calls[i]? = some x → x.stage.hasCompiler = false) :
    SameState c crowd (crowd.play c move) := by
  rcases crowd.play_cases c move with ⟨_, rfl, -⟩ | hplay |
    ⟨before, call, after, stage, s, hcalls, hmoves, hplay, ht⟩
  · cases hmove
  · rw [hplay]
    exact ⟨fun _ => rfl, fun _ _ _ => .rfl⟩
  · obtain rfl : i = before.length := Option.some.inj (hmove.symm.trans hmoves)
    have hcompiler : stage.hasCompiler = false := by
      refine hafter ⟨call.version, stage⟩ ?_
      rw [hplay]
      simp
    rw [hplay]
    constructor
    · refine ht.path?_of_not_recording ?_
      cases hrecording : call.stage.isRecording with
      | false => rfl
      | true =>
        obtain ⟨lock, isNew, hstage⟩ := Stage.isRecording_iff.1 hrecording
        rw [ht.hasCompiler (by rw [hstage]; rfl)] at hcompiler
        cases hcompiler
    · rcases ht.path_cases (hknown.safe call (by simp [hcalls])) with hpath | ⟨lock, -, rfl, -⟩
      · exact hpath
      · cases hcompiler

/-! ## Calls that try again -/

/-- Advancing one call leaves the others where they are. -/
theorem Crowd.getElem?_advance_ne {j : Nat} (hne : j ≠ i) (mishap : Option Mishap) :
    (crowd.play c (.advance i mishap)).calls[j]? = crowd.calls[j]? := by
  cases hcall : crowd.calls[i]? with
  | none => simp [play, hcall]
  | some call => simp [play, hcall, moveTo, Ne.symm hne]

theorem Crowd.advance_of_step {next : Stage} (hcall : crowd.calls[i]? = some ⟨version, stage⟩)
    (hstep : step c version none stage crowd.shared = (next, s)) :
    (crowd.play c (.advance i none)).calls[i]? = some ⟨version, next⟩ ∧
      (crowd.play c (.advance i none)).shared = s := by
  rw [getElem?_advance hcall, shared_advance hcall, hstep]
  exact ⟨rfl, rfl⟩

/-- The lock that a call takes is free if no other call about its version holds one. -/
theorem LocksMatch.isHeld_eq_false {calls : List Call} {m : Memory} {lock : Nat}
    (h : LocksMatch calls m) (hcall : calls[i]? = some ⟨version, .waiting lock⟩)
    (hfree : ∀ (j : Nat) (x : Call), j ≠ i → calls[j]? = some x → x.version = version →
      x.stage.held? = none) : m.isHeld lock = false := by
  by_contra hheld
  rw [Bool.not_eq_false] at hheld
  have hentry := h.entry _ (List.mem_of_getElem? hcall) lock rfl
  obtain ⟨x, hx, hholds⟩ := (h.isHeld_iff (h.bound _ _ hentry)).1 hheld
  have hversion : x.version = version :=
    h.apart _ _ _ (h.entry x hx lock (Stage.reference?_of_held? hholds)) hentry
  obtain ⟨j, hj⟩ := List.mem_iff_getElem?.1 hx
  by_cases hji : j = i
  · rw [hji, hcall, Option.some.injEq] at hj
    rw [← hj] at hholds
    cases hholds
  · rw [hfree j x hji hj hversion] at hholds
    cases hholds

/-- A call that comes for a version which is neither known nor there, and whose lock nobody holds, starts
a download at its fifth step. -/
theorem Crowd.started_of_missing (disk : Disk) (moves : List Move)
    (hsafe : Version.isSafe version.toList = true)
    (hunknown : ((start disk).run c moves).shared.memory.path? version = none)
    (hmissing : ((start disk).run c moves).shared.disk.exists? (c.path version) = .ok false)
    (hfree : ∀ x ∈ ((start disk).run c moves).calls, x.version = version → x.stage.held? = none) :
    .started ((start disk).run c moves).calls.length version ∈ (start disk).history c
      (moves ++ .arrive version ::
        List.replicate 5 (.advance ((start disk).run c moves).calls.length none)) := by
  have hlocks := @LocksMatch.run c disk moves
  rw [history_append]
  refine List.mem_append_right _ ?_
  generalize (start disk).run c moves = crowd at *
  generalize hn : crowd.calls.length = n
  obtain ⟨lock, memory, htake⟩ : ∃ lock memory, crowd.shared.memory.takeLock version = (lock, memory) :=
    ⟨_, _, rfl⟩
  have hmemory : memory.path? version = none := (Memory.path?_of_takeLock htake).trans hunknown
  -- the crowds after each move
  let arrived := crowd.play c (.arrive version)
  let next (crowd : Crowd) : Crowd := crowd.play c (.advance n none)
  have harrived : arrived.calls[n]? = some ⟨version, .starting⟩ ∧ arrived.shared = crowd.shared :=
    ⟨by simp [arrived, play, ← hn], rfl⟩
  have hlooking : (next arrived).calls[n]? = some ⟨version, .looking⟩ ∧
      (next arrived).shared = crowd.shared :=
    advance_of_step harrived.1 (by simp [harrived.2, step, hsafe, hunknown])
  have hwaiting : (next (next arrived)).calls[n]? = some ⟨version, .waiting lock⟩ ∧
      (next (next arrived)).shared = { crowd.shared with memory } :=
    advance_of_step hlooking.1 (by simp [hlooking.2, step, htake])
  have hheld : memory.isHeld lock = false := by
    have hmatch : LocksMatch (next (next arrived)).calls memory := by
      have hplayed : LocksMatch _ (next (next arrived)).shared.memory := hlocks.play.play.play
      rwa [hwaiting.2] at hplayed
    refine hmatch.isHeld_eq_false hwaiting.1 ?_
    intro j x hj hx hversion
    rw [getElem?_advance_ne hj, getElem?_advance_ne hj] at hx
    have hmem : x ∈ crowd.calls ++ [⟨version, .starting⟩] := List.mem_of_getElem? hx
    rcases List.mem_append.1 hmem with hmem | hmem
    · exact hfree x hmem hversion
    · rw [List.mem_singleton.1 hmem]
      rfl
  have hchecking : (next (next (next arrived))).calls[n]? = some ⟨version, .checking lock⟩ ∧
      (next (next (next arrived))).shared = { crowd.shared with memory := memory.hold lock } :=
    advance_of_step hwaiting.1 (by simp [hwaiting.2, step, hheld])
  have hprobing : (next (next (next (next arrived)))).calls[n]? = some ⟨version, .probing lock⟩ ∧
      (next (next (next (next arrived)))).shared
        = { crowd.shared with memory := memory.hold lock } :=
    advance_of_step hchecking.1 (by simp [hchecking.2, step, hmemory])
  have hrequesting : (next (next (next (next (next arrived))))).calls[n]?
      = some ⟨version, .requesting lock (c.url version)⟩ := by
    rw [getElem?_advance hprobing.1]
    simp [hprobing.2, step, Disk.asking, hmissing]
  have hevent : (next (next (next (next arrived)))).event? c (.advance n none)
      = some (.started n version) := by
    simp only [event?, Move.call?, hprobing.1, Option.bind_eq_bind, Option.bind_some]
    rw [hrequesting]
    rfl
  have hsplit : Move.arrive version :: List.replicate 5 (.advance n none)
      = (.arrive version :: List.replicate 4 (.advance n none)) ++ [.advance n none] := rfl
  rw [hsplit, history_concat]
  exact List.mem_append_right _ (Option.mem_toList.2 hevent)

/-! ## The promise -/

/-- What can be relied on at a point of a run. -/
structure TruthfulCache (c : Cache) (disk : Disk) (moves : List Move) : Prop where
  /-- What is known to be installed is a file at its place, which was there from the start or has the
  content that a reply brought. -/
  present : ∀ version path,
    ((Crowd.start disk).run c moves).shared.memory.path? version = some path →
    path = c.path version ∧ ∃ place mode content,
      ((Crowd.start disk).run c moves).shared.disk.find path = .ok (place, .file mode content) ∧
        (disk.find path = .ok (place, .file mode content) ∨ Brought c disk moves version content)
  /-- A file that has the name of a version stays as it is, whatever comes. -/
  kept : ∀ version, Version.isSafe version.toList = true → ∀ result,
    ((Crowd.start disk).run c moves).shared.disk.find (c.path version) = .ok result →
    ∀ more, ((Crowd.start disk).run c (moves ++ more)).shared.disk.find (c.path version) = .ok result
  /-- No move of a call that ends in an error has changed what is known or the file of a version. -/
  failed : ∀ (i : Nat) (call : Call) (error : CompilerError),
    ((Crowd.start disk).run c moves).calls[i]? = some call →
    call.stage.outcome? = some (.error error) →
    ∀ before move after, moves = before ++ move :: after → move.call? = some i →
      SameState c ((Crowd.start disk).run c before) ((Crowd.start disk).run c (before ++ [move]))
  /-- A call that comes for a version which is neither known nor there downloads it, unless another one
  holds its lock. -/
  retried : ∀ version, Version.isSafe version.toList = true →
    ((Crowd.start disk).run c moves).shared.memory.path? version = none →
    ((Crowd.start disk).run c moves).shared.disk.exists? (c.path version) = .ok false →
    (∀ x ∈ ((Crowd.start disk).run c moves).calls, x.version = version → x.stage.held? = none) →
    .started ((Crowd.start disk).run c moves).calls.length version ∈ (Crowd.start disk).history c
      (moves ++ .arrive version ::
        List.replicate 5 (.advance ((Crowd.start disk).run c moves).calls.length none))

/-- A cache whose directory holds only files under the names of versions is truthful. -/
theorem truthfulCache_of_files (moves : List Move)
    (hfiles : ∀ version, Version.isSafe version.toList = true → ∀ place,
      disk.find (c.path version) ≠ .ok (place, .directory)) :
    TruthfulCache c disk moves where
  present version path hpath := by
    have hgood := Files.run c disk moves
    obtain ⟨rfl, hsafe⟩ := (Knowledge.run disk moves).path version path hpath
    refine ⟨rfl, ?_⟩
    obtain ⟨⟨place, entry⟩, hfind⟩ := hgood.installed version (.inl (by rw [hpath]; rfl))
    rcases hgood.origin version hsafe place entry hfind with hfirst | ⟨mode, content, rfl, hbrought⟩
    · cases entry with
      | directory => exact absurd hfirst (hfiles version hsafe place)
      | file mode content => exact ⟨place, mode, content, hfind, .inl hfirst⟩
    · exact ⟨place, mode, content, hfind, .inr hbrought⟩
  kept version hsafe result hfind more := by
    induction more using List.reverseRecOn with
    | nil => simpa using hfind
    | append_singleton more move ih =>
      rw [← List.append_assoc, Crowd.run_concat]
      exact (Files.run c disk _).find_play (.run disk _) hsafe ih
  failed i call error hcall herror before move after hmoves hmove := by
    rw [Crowd.run_concat]
    refine sameState_play (.run disk before) hmove fun x hx => ?_
    -- otherwise the call would have its compiler to the end
    by_contra hcompiler
    rw [Bool.not_eq_false] at hcompiler
    obtain ⟨y, hy, hend⟩ := Crowd.hasCompiler_run (c := c) hx hcompiler after
    rw [hmoves, List.append_cons, Crowd.run_append, Crowd.run_concat, hy, Option.some.injEq] at hcall
    rw [hcall] at hend
    cases hstage : call.stage <;> simp_all [Stage.hasCompiler, Stage.outcome?]
  retried version hsafe hunknown hmissing hfree :=
    Crowd.started_of_missing disk moves hsafe hunknown hmissing hfree

/-- The first download fails, and the second one installs. -/
theorem truthfulCache_of_files_retried :
    let c : Cache := ⟨"/", "http://host/"⟩
    let moves : List Move :=
      [.arrive "v1"] ++ List.replicate 5 (.advance 0 none) ++ [.reply 0 (.ok ⟨500, none, [], true⟩)] ++
        List.replicate 3 (.advance 0 none) ++ [.arrive "v1"] ++ List.replicate 5 (.advance 1 none) ++
        [.reply 1 (.ok ⟨200, none, [1, 2], true⟩)] ++ List.replicate 4 (.advance 1 none)
    let crowd := (Crowd.start ⟨[], []⟩).run c moves
    (∀ version, Version.isSafe version.toList = true → ∀ place,
        Disk.find ⟨[], []⟩ (c.path version) ≠ .ok (place, .directory)) ∧
      crowd.calls.map (fun call => call.stage.outcome?.map (·.isOk)) = [some false, some true] ∧
      ∃ content, Brought c ⟨[], []⟩ moves "v1" content := by
  intro c moves crowd
  have hfiles : ∀ version, Version.isSafe version.toList = true → ∀ place,
      Disk.find ⟨[], []⟩ (c.path version) ≠ .ok (place, .directory) := by
    intro version hsafe place hfind
    obtain ⟨hlocate, hget⟩ := (Disk.find_join_iff (Version.isName hsafe)).1 hfind
    have hlast := Disk.getLast?_of_locate (Version.isName hsafe) hlocate
    -- only the root is a directory
    cases place with
    | nil => cases hlast
    | cons name place => cases hget
  have hended : crowd.calls.map (fun call => call.stage.outcome?.map (·.isOk))
      = [some false, some true] := by decide +kernel
  have hpath : ((Crowd.start ⟨[], []⟩).run c moves).shared.memory.path? "v1" = some "/v1" := by
    decide +kernel
  have hmissing : (Disk.find ⟨[], []⟩ "/v1").isOk = false := by decide +kernel
  have htrue : TruthfulCache c ⟨[], []⟩ moves := truthfulCache_of_files moves hfiles
  refine ⟨hfiles, hended, ?_⟩
  obtain ⟨-, place, mode, content, -, hfirst | hbrought⟩ := htrue.present "v1" "/v1" hpath
  · rw [hfirst] at hmissing
    cases hmissing
  · exact ⟨content, hbrought⟩

end Provenance.Cache
