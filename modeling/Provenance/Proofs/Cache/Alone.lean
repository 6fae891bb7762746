import Provenance.Proofs.Cache.Memory
import Provenance.Proofs.Cache.Names
import Provenance.Cache.Step
import Provenance.Proofs.Session

/-!
# Calls one after another

When no other call is under way, a call never waits, and what it comes to depends on the disk with which
the cache began and on the reply to its download alone (`kept`), whatever calls there were before.
-/

namespace Provenance.Cache

variable {c : Cache} {version other : String} {s : Shared} {d e : Disk} {content : Bytes}
  {stage : Stage} {result : Result} {lock : Nat} {address : String} {steps : Nat}

/-- The replies to downloads, by version. -/
abbrev Replies := String → Except Http.TransferError Http.Reply

variable {replies : Replies}

/-! ## Going on alone -/

/-- Goes a step, or on with the reply to the download. -/
def next (c : Cache) (replies : Replies) (version : String) : Stage → Shared → Stage × Shared
  | .requesting lock address, s => (receive version (replies version) (.requesting lock address), s)
  | stage, s => step c version none stage s

/-- Goes on so many times. -/
def settle (c : Cache) (replies : Replies) (version : String) : Nat → Stage → Shared → Stage × Shared
  | 0, stage, s => (stage, s)
  | steps + 1, stage, s =>
    match next c replies version stage s with
    | (stage, s) => settle c replies version steps stage s

/-- A call that has ended stays so. -/
theorem settle_done : settle c replies version steps (.done result) s = (.done result, s) := by
  induction steps with
  | zero => rfl
  | succ steps ih => exact ih

/-- A call about a version that is known ends at once. -/
theorem settle_of_known {path : String} (hsafe : Version.isSafe version.toList = true)
    (hknown : s.memory.path? version = some path) :
    settle c replies version maxSteps .starting s = (.done (.ok path), s) := by
  simp [settle, maxSteps, next, step, hsafe, hknown]

/-- A call that misses its version in the memory comes to look for it on the disk. -/
theorem settle_starting (hsafe : Version.isSafe version.toList = true)
    (hunknown : s.memory.path? version = none) (hfree : ∀ k, s.memory.isHeld k = false) :
    ∃ lock memory, settle c replies version (steps + 4) .starting s
        = settle c replies version steps (.probing lock) { s with memory } ∧
      (∀ other, memory.path? other = s.memory.path? other) ∧
      ∀ k, k ≠ lock → memory.isHeld k = false := by
  obtain ⟨lock, taken, htake⟩ : ∃ lock taken, s.memory.takeLock version = (lock, taken) :=
    ⟨_, _, rfl⟩
  have hpaths : ∀ other, taken.path? other = s.memory.path? other := fun _ =>
    Memory.path?_of_takeLock htake
  have hheld : ∀ k, taken.isHeld k = false := fun k =>
    (Memory.isHeld_of_takeLock htake).trans (hfree k)
  refine ⟨lock, taken.hold lock, ?_, hpaths, ?_⟩
  · simp [settle, next, step, hsafe, hunknown, htake, hheld, hpaths]
  · intro k hk
    rw [Memory.isHeld_hold hk, hheld]

/-- A call that is done with its lock ends and leaves all locks free. -/
theorem settle_releasing (hfree : ∀ k, k ≠ lock → s.memory.isHeld k = false) :
    ∃ memory, settle c replies version (steps + 3) (.releasing lock result) s
        = (.done result, { s with memory }) ∧
      (∀ other, memory.path? other = s.memory.path? other) ∧ ∀ k, memory.isHeld k = false := by
  refine ⟨((s.memory.letGo lock).dropClone lock).forgetLock version, ?_, ?_, ?_⟩
  · simp [settle, next, step, settle_done]
  · simp
  · intro k
    rw [Memory.isHeld_forgetLock, Memory.isHeld_dropClone, Memory.isHeld_letGo]
    split
    · rfl
    · next hk => exact hfree k hk

/-! ## Writing and renaming -/

/-- What is written can be marked, and renamed if the version's name leads somewhere. -/
theorem write_cases (hsafe : Version.isSafe version.toList = true)
    (hnone : ∀ result, d.find (c.path version) ≠ .ok result)
    (hwritten : d.write (c.partialPath version) content = .ok e) :
    ∃ marked, e.setMode (c.partialPath version) Disk.programMode = .ok marked ∧
      c.Touches version d marked ∧ (∀ result, marked.find (c.path version) ≠ .ok result) ∧
      ((∃ fault, d.locate (c.path version) = .error fault ∧
          marked.rename (c.partialPath version) (c.path version) = .error fault) ∨
        ∃ goal renamed, d.locate (c.path version) = .ok goal ∧
          marked.rename (c.partialPath version) (c.path version) = .ok renamed ∧
          c.Touches version d renamed ∧
          renamed.find (c.path version) = .ok (goal, .file Disk.programMode content)) := by
  obtain ⟨htouches, hpath, q, mode, hfile⟩ := write_partialPath hsafe hwritten
  have hmarked := Disk.setMode_of_find hfile Disk.programMode
  obtain ⟨htouches', hpath', hfile'⟩ := setMode_partialPath hsafe hmarked
  replace hfile := hfile' q mode content hfile
  replace htouches := htouches.trans htouches'
  generalize e.put q (.file Disk.programMode content) = marked at *
  have habsent : ∀ result, marked.find (c.path version) ≠ .ok result :=
    fun result hfind => hnone result ((hpath _ hsafe _).1 ((hpath' _ hsafe _).1 hfind))
  have hlocate : marked.locate (c.path version) = d.locate (c.path version) :=
    htouches.names _ (Version.isName hsafe)
  refine ⟨marked, hmarked, htouches, habsent, ?_⟩
  cases hgoal : d.locate (c.path version) with
  | error fault =>
    refine .inl ⟨fault, rfl, ?_⟩
    rw [Disk.rename, hfile]
    simp only [bind, Except.bind, hlocate, hgoal]
  | ok goal =>
    have hfree : marked.get? goal ≠ some .directory := fun hget => habsent _
      ((Disk.find_join_iff (Version.isName hsafe)).2 ⟨hlocate.trans hgoal, hget⟩)
    obtain ⟨renamed, hrenamed⟩ :=
      Disk.rename_of_find (Version.isName hsafe) hfile (hlocate.trans hgoal) hfree
    obtain ⟨htouches'', place', hfind⟩ := rename_partialPath hsafe hrenamed hfile
    obtain rfl : goal = place' := by
      obtain ⟨hplace', -⟩ := (Disk.find_join_iff (Version.isName hsafe)).1 hfind
      have hsame := htouches''.directories.locate (hlocate.trans hgoal)
      exact Except.ok.inj (hsame.symm.trans hplace')
    exact .inr ⟨goal, renamed, rfl, hrenamed, htouches.trans htouches'', hfind⟩

/-- What a download would leave in the place of a version on a disk. -/
def fetched (c : Cache) (replies : Replies) (d : Disk) (version : String) :
    Except CompilerError (Place × Entry) := do
  let content ← downloaded version (replies version)
  let _ ← (d.write (c.partialPath version) content).mapError (.cache (c.partialPath version))
  let place ← (d.locate (c.path version)).mapError (.cache (c.path version))
  return (place, .file Disk.programMode content)

/-! ## What a call changes -/

/-- What is shared after a call has tried to get a version. No lock is held, and no other version is touched. If
the call failed, the same is found and known of its version as before, or else the compiler is found and known. -/
structure Tried (c : Cache) (version : String) (tried : Except CompilerError (Place × Entry))
    (s s' : Shared) : Prop where
  free : ∀ k, s'.memory.isHeld k = false
  touches : c.Touches version s.disk s'.disk
  failed : ∀ error, tried = .error error → s'.disk.find (c.path version) = s.disk.find (c.path version)
  found : ∀ found, tried = .ok found → s'.disk.find (c.path version) = .ok found
  paths : ∀ other, s'.memory.path? other
    = if other = version ∧ tried.isOk then some (c.path version) else s.memory.path? other

namespace Tried

variable {tried : Except CompilerError (Place × Entry)} {s' : Shared}

/-- Only what was known before the call counts. -/
theorem of_paths {memory : Memory} (h : Tried c version tried { s with memory } s')
    (hpaths : ∀ other, memory.path? other = s.memory.path? other) : Tried c version tried s s' where
  free := h.free
  touches := h.touches
  failed := h.failed
  found := h.found
  paths other := by rw [h.paths, hpaths]

/-- The same is found as before of all versions but the one that a call got. -/
theorem find_eq (h : Tried c version tried s s') (hother : Version.isSafe other.toList = true)
    (hleft : ¬(other = version ∧ tried.isOk)) :
    s'.disk.find (c.path other) = s.disk.find (c.path other) := by
  by_cases heq : other = version
  · subst heq
    cases tried with
    | error e => exact h.failed e rfl
    | ok found => exact absurd ⟨rfl, rfl⟩ hleft
  · exact h.touches.find_path hother heq

end Tried

section
variable (hfree : ∀ k, k ≠ lock → s.memory.isHeld k = false) (htouches : c.Touches version s.disk d)
include hfree htouches

/-- A call that fails while it has its lock ends with its error. -/
theorem settle_failing {error : CompilerError}
    (hsame : d.find (c.path version) = s.disk.find (c.path version)) :
    ∃ s', settle c replies version (steps + 3) (.releasing lock (.error error)) { s with disk := d }
        = (.done (.error error), s') ∧ Tried c version (.error error) s s' := by
  obtain ⟨memory, hsettle, hpaths, hheld⟩ := @settle_releasing c version { s with disk := d }
    (.error error) lock steps replies hfree
  refine ⟨⟨memory, d⟩, hsettle, hheld, htouches, fun _ _ => hsame, nofun, fun other => ?_⟩
  rw [if_neg (fun h => Bool.false_ne_true h.2)]
  exact hpaths other

/-- A call that has its compiler in place remembers it and ends with its path. -/
theorem settle_recording {found : Place × Entry} {isNew : Bool}
    (hfound : d.find (c.path version) = .ok found) :
    ∃ s', settle c replies version (steps + 4) (.recording lock isNew) { s with disk := d }
        = (.done (.ok (c.path version)), s') ∧ Tried c version (.ok found) s s' := by
  obtain ⟨memory, hsettle, hpaths, hheld⟩ := @settle_releasing c version
    ⟨s.memory.install version (c.path version), d⟩ (.ok (c.path version)) lock steps replies hfree
  refine ⟨⟨memory, d⟩, hsettle, hheld, htouches, nofun, ?_, fun other => ?_⟩
  · rintro _ ⟨⟩
    exact hfound
  · rw [hpaths, Memory.path?_install]
    simp [Except.isOk, Except.toBool]

end

/-- A call that waits for the reply to its download ends with what this leaves. -/
theorem settle_requesting (hsafe : Version.isSafe version.toList = true)
    (hnone : ∀ result, s.disk.find (c.path version) ≠ .ok result)
    (hfree : ∀ k, k ≠ lock → s.memory.isHeld k = false) :
    ∃ s', settle c replies version (steps + 8) (.requesting lock address) s
        = (.done ((fetched c replies s.disk version).map fun _ => c.path version), s') ∧
      Tried c version (fetched c replies s.disk version) s s' := by
  cases hreply : downloaded version (replies version) with
  | error e =>
    have hfetched : fetched c replies s.disk version = .error e := by
      simp only [fetched, hreply, bind, Except.bind]
    obtain ⟨s', hsettle, htried⟩ := @settle_failing c version s s.disk lock (steps + 4) replies hfree
      (.refl c version s.disk) e rfl
    rw [hfetched]
    refine ⟨s', Eq.trans ?_ hsettle, htried⟩
    simp [settle, next, receive, hreply]
  | ok content =>
    cases hwritten : s.disk.write (c.partialPath version) content with
    | error fault =>
      have hfetched : fetched c replies s.disk version
          = .error (.cache (c.partialPath version) fault) := by
        simp only [fetched, hreply, hwritten, bind, Except.bind, mapError_error]
      obtain ⟨s', hsettle, htried⟩ := @settle_failing c version s s.disk lock (steps + 3) replies hfree
        (.refl c version s.disk) (.cache (c.partialPath version) fault) rfl
      rw [hfetched]
      refine ⟨s', Eq.trans ?_ hsettle, htried⟩
      simp [settle, next, receive, hreply, step, Disk.writing, Disk.changing, Disk.asking, hwritten]
    | ok disk =>
      obtain ⟨marked, hmarked, htouches, habsent, hrename⟩ := write_cases hsafe hnone hwritten
      rcases hrename with ⟨fault, hlocate, hrenamed⟩ | ⟨goal, renamed, hgoal, hrenamed, hrenaming, hfind⟩
      · have hfetched : fetched c replies s.disk version = .error (.cache (c.path version) fault) := by
          simp only [fetched, hreply, hwritten, hlocate, bind, Except.bind, mapError_ok, mapError_error]
        -- nothing was found before, and nothing is now
        have hsame : marked.find (c.path version) = s.disk.find (c.path version) := by
          have hname := Version.isName hsafe
          refine Disk.find_join_congr hname (htouches.names _ hname) fun result => ?_
          exact ⟨fun h => absurd h (habsent result), fun h => absurd h (hnone result)⟩
        obtain ⟨s', hsettle, htried⟩ := @settle_failing c version s marked lock (steps + 1) replies hfree
          htouches (.cache (c.path version) fault) hsame
        rw [hfetched]
        refine ⟨s', Eq.trans ?_ hsettle, htried⟩
        simp [settle, next, receive, hreply, step, Disk.writing, Disk.changing, Disk.asking, hwritten,
          hmarked, hrenamed]
      · have hfetched : fetched c replies s.disk version
            = .ok (goal, .file Disk.programMode content) := by
          simp only [fetched, hreply, hwritten, hgoal, bind, Except.bind, mapError_ok]
          rfl
        obtain ⟨s', hsettle, htried⟩ := @settle_recording c version s renamed lock steps replies hfree
          hrenaming _ true hfind
        rw [hfetched]
        refine ⟨s', Eq.trans ?_ hsettle, htried⟩
        simp [settle, next, receive, hreply, step, Disk.writing, Disk.changing, Disk.asking, hwritten,
          hmarked, hrenamed]

/-! ## What a call comes to -/

/-- What stands in the place of a version when a call about it has ended, if the cache began with a
disk. -/
def kept (c : Cache) (replies : Replies) (d : Disk) (version : String) :
    Except CompilerError (Place × Entry) :=
  if !Version.isSafe version.toList then .error (.invalidVersion version)
  else
    match d.find (c.path version) with
    | .ok found => .ok found
    | .error .notFound => fetched c replies d version
    | .error fault => .error (.cache (c.path version) fault)

/-- What is shared after calls one after another, if the cache began with a disk. -/
structure Stock (c : Cache) (replies : Replies) (d : Disk) (s : Shared) : Prop where
  free : ∀ number, s.memory.isHeld number = false
  directories : d.SameDirectories s.disk
  names : ∀ name, Path.IsName name →
    s.disk.locate (Path.join c.directory name) = d.locate (Path.join c.directory name)
  known : ∀ version path, s.memory.path? version = some path → path = c.path version ∧
    ∃ found, kept c replies d version = .ok found ∧ s.disk.find (c.path version) = .ok found
  unknown : ∀ version, Version.isSafe version.toList = true → s.memory.path? version = none →
    s.disk.find (c.path version) = d.find (c.path version)

theorem Stock.start (c : Cache) (replies : Replies) (d : Disk) : Stock c replies d ⟨.empty, d⟩ where
  free _ := by simp [Memory.isHeld, Memory.empty]
  directories := .refl d
  names _ _ := rfl
  known _ _ h := by simp [Memory.path?, Memory.empty, Dictionary.get?] at h
  unknown _ _ _ := rfl

theorem isSafe_of_kept {found : Place × Entry} (h : kept c replies d version = .ok found) :
    Version.isSafe version.toList = true := by
  unfold kept at h
  split at h
  · cases h
  · next hsafe => simpa using hsafe

/-- What is kept stood there from the beginning, or nothing did. -/
theorem find_of_kept {found : Place × Entry} (h : kept c replies d version = .ok found) :
    d.find (c.path version) = .ok found ∨ d.find (c.path version) = .error .notFound := by
  have hsafe := isSafe_of_kept h
  simp only [kept, hsafe, Bool.not_true, Bool.false_eq_true, if_false] at h
  split at h
  · next hfind => exact .inl (hfind.trans (congrArg _ (Except.ok.inj h)))
  · next hfind => exact .inr hfind
  · cases h

/-- That a toolchain is missing is not why a version is not kept. -/
theorem kept_ne_toolchainNotInstalled {path : String} :
    kept c replies d version ≠ .error (.toolchainNotInstalled path) := by
  have hdownloaded : downloaded version (replies version) ≠ .error (.toolchainNotInstalled path) := by
    unfold downloaded
    split
    · nofun
    · split
      · intro h
        obtain ⟨e, -, he⟩ := mapError_eq_error_iff.1 h
        cases he
      · nofun
  have hfetched : fetched c replies d version ≠ .error (.toolchainNotInstalled path) := by
    intro h
    rcases bind_eq_error_iff.1 h with h | ⟨content, -, h⟩
    · exact hdownloaded h
    · rcases bind_eq_error_iff.1 h with h | ⟨_, -, h⟩
      · obtain ⟨fault, -, hfault⟩ := mapError_eq_error_iff.1 h
        cases hfault
      · rcases bind_eq_error_iff.1 h with h | ⟨_, -, h⟩
        · obtain ⟨fault, -, hfault⟩ := mapError_eq_error_iff.1 h
          cases hfault
        · cases h
  unfold kept
  split
  · nofun
  · split
    · nofun
    · exact hfetched
    · nofun

/-- What a download would leave depends on where names lead and on what is a directory. -/
theorem fetched_congr (hsafe : Version.isSafe version.toList = true) (hsame : d.SameDirectories e)
    (hnames : ∀ name, Path.IsName name →
      e.locate (Path.join c.directory name) = d.locate (Path.join c.directory name)) :
    fetched c replies e version = fetched c replies d version := by
  simp only [fetched, bind, Except.bind]
  cases downloaded version (replies version) with
  | error error => rfl
  | ok content =>
    have hname := Version.isName_partialName hsafe
    have hwrite : (e.write (c.partialPath version) content).map (fun _ => ())
        = (d.write (c.partialPath version) content).map fun _ => () :=
      hsame.write_join hname (hnames _ hname)
    have hlocate : e.locate (c.path version) = d.locate (c.path version) :=
      hnames _ (Version.isName hsafe)
    dsimp only
    cases hd : d.write (c.partialPath version) content with
    | error fault =>
      cases he : e.write (c.partialPath version) content with
      | error fault' =>
        simp only [hd, he, Except.map, Except.error.injEq] at hwrite
        simp only [mapError_error, hwrite]
      | ok disk => simp [hd, he, Except.map] at hwrite
    | ok disk =>
      cases he : e.write (c.partialPath version) content with
      | error fault' => simp [hd, he, Except.map] at hwrite
      | ok disk' => simp only [mapError_ok, hlocate]

/-- What is shared is as it should be after a call that kept its version, or failed where it is not kept. -/
theorem Stock.change {s' : Shared} (h : Stock c replies d s)
    (htried : Tried c version (kept c replies d version) s s') : Stock c replies d s' where
  free := htried.free
  directories := h.directories.trans htried.touches.directories
  names name hname := (htried.touches.names name hname).trans (h.names name hname)
  known other path hpath := by
    rw [htried.paths] at hpath
    split at hpath
    · next hgot =>
      obtain ⟨rfl, hok⟩ := hgot
      cases hkept : kept c replies d other with
      | error e => simp [hkept, Except.isOk, Except.toBool] at hok
      | ok found => exact ⟨(Option.some.inj hpath).symm, found, rfl, htried.found found hkept⟩
    · next hleft =>
      obtain ⟨hplace, found, hkept, hfind⟩ := h.known other path hpath
      exact ⟨hplace, found, hkept, (htried.find_eq (isSafe_of_kept hkept) hleft).trans hfind⟩
  unknown other hother hunknown := by
    rw [htried.paths] at hunknown
    split at hunknown
    · cases hunknown
    · next hleft => exact (htried.find_eq hother hleft).trans (h.unknown other hother hunknown)

/-! ## How a call ends -/

/-- A call that no other one disturbs ends, with the path of its version if this is kept, which is then
known. -/
def Ends (c : Cache) (replies : Replies) (d : Disk) (s : Shared) (version : String) : Prop :=
  ∃ shared, settle c replies version maxSteps .starting s
      = (.done ((kept c replies d version).map fun _ => c.path version), shared) ∧
    Stock c replies d shared ∧ ∀ other, shared.memory.path? other
      = if other = version ∧ (kept c replies d version).isOk then some (c.path version)
        else s.memory.path? other

namespace Stock

theorem ends_of_refused (h : Stock c replies d s) (hrefused : Version.isSafe version.toList = false) :
    Ends c replies d s version := by
  have hkept : kept c replies d version = .error (.invalidVersion version) := by
    simp [kept, hrefused]
  refine ⟨s, ?_, h, fun _ => by simp [hkept, Except.isOk, Except.toBool]⟩
  rw [hkept]
  simp [settle, maxSteps, next, step, hrefused, Except.map]

theorem ends_of_known {path : String} (h : Stock c replies d s)
    (hknown : s.memory.path? version = some path) : Ends c replies d s version := by
  obtain ⟨rfl, found, hkept, -⟩ := h.known version path hknown
  have hsafe := isSafe_of_kept hkept
  refine ⟨s, ?_, h, fun other => ?_⟩
  · rw [hkept]
    exact settle_of_known hsafe hknown
  · by_cases heq : other = version
    · simp [heq, hkept, hknown, Except.isOk, Except.toBool]
    · simp [heq]

section
variable (h : Stock c replies d s) (hsafe : Version.isSafe version.toList = true)
  (hunknown : s.memory.path? version = none)
include h hsafe hunknown

/-- A call that knows nothing of its version ends as it does when it comes to look for it on the disk. -/
theorem ends_of_probing (hprobing : ∀ lock memory, (∀ k, k ≠ lock → memory.isHeld k = false) →
    ∃ s', settle c replies version 9 (.probing lock) { s with memory }
        = (.done ((kept c replies d version).map fun _ => c.path version), s') ∧
      Tried c version (kept c replies d version) { s with memory } s') : Ends c replies d s version := by
  obtain ⟨lock, memory, hstart, hpaths, hfree⟩ :=
    @settle_starting c version s 9 replies hsafe hunknown h.free
  obtain ⟨s', hsettle, htried⟩ := hprobing lock memory hfree
  replace htried := htried.of_paths hpaths
  exact ⟨s', hstart.trans hsettle, h.change htried, htried.paths⟩

theorem ends_of_found {found : Place × Entry} (hfound : d.find (c.path version) = .ok found) :
    Ends c replies d s version := by
  have hkept : kept c replies d version = .ok found := by simp [kept, hsafe, hfound]
  have hfind := (h.unknown version hsafe hunknown).trans hfound
  have hexists : s.disk.exists? (c.path version) = .ok true := Disk.exists?_eq_true_iff.2 ⟨found, hfind⟩
  refine h.ends_of_probing hsafe hunknown fun lock memory hfree => ?_
  obtain ⟨s', hsettle, htried⟩ := @settle_recording c version { s with memory } s.disk lock 4 replies
    hfree (.refl c version s.disk) found false hfind
  rw [hkept]
  refine ⟨s', Eq.trans ?_ hsettle, htried⟩
  simp [settle, next, step, Disk.asking, hexists]

theorem ends_of_fault {fault : IoFault} (hfault : d.find (c.path version) = .error fault)
    (hne : fault ≠ .notFound) : Ends c replies d s version := by
  have hkept : kept c replies d version = .error (.cache (c.path version) fault) := by
    simp only [kept, hsafe, hfault, Bool.not_true, Bool.false_eq_true, if_false]
  have hexists := Disk.exists?_of_error ((h.unknown version hsafe hunknown).trans hfault) hne
  refine h.ends_of_probing hsafe hunknown fun lock memory hfree => ?_
  obtain ⟨s', hsettle, htried⟩ := @settle_failing c version { s with memory } s.disk lock 5 replies
    hfree (.refl c version s.disk) (.cache (c.path version) fault) rfl
  rw [hkept]
  refine ⟨s', Eq.trans ?_ hsettle, htried⟩
  simp [settle, next, step, Disk.asking, hexists]

theorem ends_of_missing (hmissing : d.find (c.path version) = .error .notFound) :
    Ends c replies d s version := by
  have hkept : kept c replies d version = fetched c replies s.disk version := by
    rw [fetched_congr hsafe h.directories h.names]
    simp [kept, hsafe, hmissing]
  have hfind := (h.unknown version hsafe hunknown).trans hmissing
  have hexists := Disk.exists?_eq_false_iff.2 hfind
  refine h.ends_of_probing hsafe hunknown fun lock memory hfree => ?_
  obtain ⟨s', hsettle, htried⟩ := @settle_requesting c version { s with memory } lock (c.url version) 0
    replies hsafe (by rw [hfind]; exact nofun) hfree
  rw [hkept]
  refine ⟨s', Eq.trans ?_ hsettle, htried⟩
  simp [settle, next, step, Disk.asking, hexists]

end

/-- Whatever calls there were before, a call comes to what the disk of the beginning and the reply to its
download tell. -/
theorem ends (h : Stock c replies d s) (version : String) : Ends c replies d s version := by
  cases hsafe : Version.isSafe version.toList with
  | false => exact h.ends_of_refused hsafe
  | true =>
    cases hpath : s.memory.path? version with
    | some path => exact h.ends_of_known hpath
    | none =>
      cases hfind : d.find (c.path version) with
      | ok found => exact h.ends_of_found hsafe hpath hfind
      | error fault =>
        by_cases hnone : fault = .notFound
        · exact h.ends_of_missing hsafe hpath (hnone ▸ hfind)
        · exact h.ends_of_fault hsafe hpath hfind hnone

/-! ## Two caches that began with the same disk -/

variable {s' : Shared}

/-- The same is found of a version that both know or neither does. -/
theorem find_congr (h : Stock c replies d s) (h' : Stock c replies d s')
    (hsafe : Version.isSafe version.toList = true)
    (hknown : (s'.memory.path? version).isSome = (s.memory.path? version).isSome) :
    s'.disk.find (c.path version) = s.disk.find (c.path version) := by
  cases hpath : s.memory.path? version with
  | none =>
    have hpath' : s'.memory.path? version = none := by simpa [hpath] using hknown
    rw [h.unknown version hsafe hpath, h'.unknown version hsafe hpath']
  | some path =>
    obtain ⟨path', hpath'⟩ := Option.isSome_iff_exists.1 (hknown.trans (by rw [hpath]; rfl))
    obtain ⟨-, found, hkept, hfind⟩ := h.known version path hpath
    obtain ⟨-, found', hkept', hfind'⟩ := h'.known version path' hpath'
    rw [hkept, Except.ok.injEq] at hkept'
    rw [hfind, hfind', hkept']

/-- What one of them does not know is found differently only where it is missing, and is known to the
other. -/
theorem missing_of_find_ne (h : Stock c replies d s) (h' : Stock c replies d s')
    (hsafe : Version.isSafe version.toList = true) (hunknown : s.memory.path? version = none)
    (hne : s'.disk.find (c.path version) ≠ s.disk.find (c.path version)) :
    s.disk.exists? (c.path version) = .ok false ∧ (s'.memory.path? version).isSome := by
  have hfirst := h.unknown version hsafe hunknown
  cases hpath : s'.memory.path? version with
  | none => exact absurd (h.find_congr h' hsafe (by rw [hpath, hunknown])) hne
  | some path =>
    obtain ⟨-, found, hkept, hfind⟩ := h'.known version path hpath
    refine ⟨?_, rfl⟩
    rcases find_of_kept hkept with hstood | hmissing
    · exact absurd (hfind.trans (hfirst.trans hstood).symm) hne
    · exact Disk.exists?_eq_false_iff.2 (hfirst.trans hmissing)

end Stock

end Provenance.Cache
