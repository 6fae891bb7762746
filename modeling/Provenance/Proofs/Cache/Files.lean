import Provenance.Proofs.Cache.Downloads
import Provenance.Proofs.Cache.Names
import Provenance.Proofs.Session

/-!
# The files of a cache

What is in the files of a cache's versions (`Files`): a file was there from the start or has the content
that a reply brought, a version that is known has a file, and a version that is being downloaded has none.
A file that is being written is no version's, and when it gets the name of one its content is complete.
-/

namespace Provenance.Cache

variable {c : Cache} {disk : Disk} {brought : String → Bytes → Prop} {version : String} {move : Move}
  {stage : Stage} {s s' : Shared} {before after : List Call} {call : Call} {crowd : Crowd}

namespace Stage

/-- Whether a call is downloading a compiler or has yet to rename it. -/
def isDownloading : Stage → Bool
  | .requesting .. | .writing .. | .marking _ | .renaming _ => true
  | _ => false

/-- Whether a call has written a compiler and has yet to rename it. -/
def isWritten : Stage → Bool
  | .marking _ | .renaming _ => true
  | _ => false

/-- Who downloads holds a lock. -/
theorem isSome_held?_of_isDownloading {stage : Stage} (h : stage.isDownloading = true) :
    ∃ lock, stage.held? = some lock := by
  cases stage <;> simp_all [isDownloading, held?]

theorem isAdmitted_of_isDownloading {stage : Stage} (h : stage.isDownloading = true) :
    stage.isAdmitted = true := by
  cases stage <;> simp_all [isDownloading, isAdmitted, reference?]

theorem isDownloading_of_isWritten {stage : Stage} (h : stage.isWritten = true) :
    stage.isDownloading = true := by
  cases stage <;> simp_all [isWritten, isDownloading]

end Stage

/-- While a call holds a lock, another one that downloads is about another version. -/
theorem LocksMatch.version_ne_of_isDownloading (h : LocksMatch (before ++ call :: after) s.memory)
    (hheld : call.stage.held?.isSome) {x : Call} (hx : x ∈ before ++ after)
    (hdownloading : x.stage.isDownloading = true) : x.version ≠ call.version := by
  obtain ⟨k, hk⟩ := Option.isSome_iff_exists.1 hheld
  obtain ⟨l, hl⟩ := Stage.isSome_held?_of_isDownloading hdownloading
  exact h.version_ne hk hx hl

/-- A version is installed if it is known, or if a call or one of the others is about to tell. -/
theorem Crowd.hasInstalled_split_iff :
    HasInstalled ⟨before ++ call :: after, s⟩ version ↔ (s.memory.path? version).isSome ∨
      (call.version = version ∧ call.stage.isRecording = true) ∨
        ∃ x ∈ before ++ after, x.version = version ∧ x.stage.isRecording = true := by
  simp only [HasInstalled, mem_split, or_and_right, exists_or, exists_eq_left]

/-- A call that goes on to no record does not bring an installed version about. -/
theorem Crowd.HasInstalled.of_split
    (h : HasInstalled ⟨before ++ ⟨call.version, stage⟩ :: after, s'⟩ version)
    (hpaths : (s'.memory.path? version).isSome → s'.memory.path? version = s.memory.path? version)
    (hrecording : stage.isRecording = false) : HasInstalled ⟨before ++ call :: after, s⟩ version := by
  rw [hasInstalled_split_iff] at h ⊢
  rcases h with hknown | ⟨-, hx⟩ | hothers
  · exact .inl (hpaths hknown ▸ hknown)
  · rw [hrecording] at hx
    cases hx
  · exact .inr (.inr hothers)

/-- What is in the files of a cache that began with a disk, when certain contents have been brought for
versions. -/
structure Files (c : Cache) (disk : Disk) (brought : String → Bytes → Prop) (crowd : Crowd) :
    Prop where
  /-- What has the name of a version was there from the start or was brought. -/
  origin : ∀ version, Version.isSafe version.toList = true → ∀ place entry,
    crowd.shared.disk.find (c.path version) = .ok (place, entry) →
    disk.find (c.path version) = .ok (place, entry) ∨
      ∃ mode content, entry = .file mode content ∧ brought version content
  /-- What is known to be installed is there. -/
  installed : ∀ version, crowd.HasInstalled version →
    ∃ result, crowd.shared.disk.find (c.path version) = .ok result
  /-- What is being downloaded is not there. -/
  absent : ∀ call ∈ crowd.calls, call.stage.isDownloading = true → ∀ result,
    crowd.shared.disk.find (c.path call.version) ≠ .ok result
  /-- What is about to be written was brought. -/
  content : ∀ call ∈ crowd.calls, ∀ lock content, call.stage = .writing lock content →
    brought call.version content
  /-- What is about to be renamed is complete. -/
  written : ∀ call ∈ crowd.calls, call.stage.isWritten = true → ∃ place mode content,
    crowd.shared.disk.find (c.partialPath call.version) = .ok (place, .file mode content) ∧
      brought call.version content

namespace Files

theorem start (c : Cache) (disk : Disk) (brought : String → Bytes → Prop) :
    Files c disk brought (.start disk) where
  origin _ _ _ _ h := .inl h
  installed _ h := by
    simp [Crowd.HasInstalled, Crowd.start, Memory.empty, Memory.path?, Dictionary.get?] at h
  absent _ h := by simp [Crowd.start] at h
  content _ h := by simp [Crowd.start] at h
  written _ h := by simp [Crowd.start] at h

/-- More may have been brought. -/
theorem mono (h : Files c disk brought crowd) {more : String → Bytes → Prop}
    (hmore : ∀ version content, brought version content → more version content) :
    Files c disk more crowd where
  origin version hsafe place entry hfind := by
    refine (h.origin version hsafe place entry hfind).imp_right ?_
    rintro ⟨mode, content, hentry, hbrought⟩
    exact ⟨mode, content, hentry, hmore version content hbrought⟩
  installed := h.installed
  absent := h.absent
  content x hx lock content hstage := hmore _ _ (h.content x hx lock content hstage)
  written x hx hwritten := by
    obtain ⟨place, mode, content, hfind, hbrought⟩ := h.written x hx hwritten
    exact ⟨place, mode, content, hfind, hmore _ _ hbrought⟩

theorem arrive {calls : List Call} (h : Files c disk brought ⟨calls, s⟩) :
    Files c disk brought ⟨calls ++ [⟨version, .starting⟩], s⟩ where
  origin := h.origin
  installed other hhas := by
    refine h.installed other ?_
    rcases Crowd.hasInstalled_split_iff.1 hhas with hknown | ⟨-, hrecording⟩ | hothers
    · exact .inl hknown
    · cases hrecording
    · rw [List.append_nil] at hothers
      exact .inr hothers
  absent := List.forall_mem_append.2 ⟨h.absent, List.forall_mem_singleton.2 nofun⟩
  content := List.forall_mem_append.2 ⟨h.content, List.forall_mem_singleton.2 nofun⟩
  written := List.forall_mem_append.2 ⟨h.written, List.forall_mem_singleton.2 nofun⟩

/-- A call goes on, and all versions' files stay. What it writes it writes alone. -/
theorem keep (h : Files c disk brought ⟨before ++ call :: after, s⟩)
    (hlocks : LocksMatch (before ++ call :: after) s.memory)
    (hknown : Knowledge c ⟨before ++ call :: after, s⟩)
    (hpath : ∀ other, Version.isSafe other.toList = true → ∀ result,
      s'.disk.find (c.path other) = .ok result ↔ s.disk.find (c.path other) = .ok result)
    (hpartial : s'.disk = s.disk ∨ c.Touches call.version s.disk s'.disk ∧ call.stage.held?.isSome)
    (hinstalled : ∀ other,
      Crowd.HasInstalled ⟨before ++ ⟨call.version, stage⟩ :: after, s'⟩ other →
      Crowd.HasInstalled ⟨before ++ call :: after, s⟩ other ∨
        ∃ result, s'.disk.find (c.path other) = .ok result)
    (habsent : stage.isDownloading = true → ∀ result, s'.disk.find (c.path call.version) ≠ .ok result)
    (hcontent : ∀ lock content, stage = .writing lock content → brought call.version content)
    (hwritten : stage.isWritten = true → ∃ place mode content,
      s'.disk.find (c.partialPath call.version) = .ok (place, .file mode content) ∧
        brought call.version content) :
    Files c disk brought ⟨before ++ ⟨call.version, stage⟩ :: after, s'⟩ where
  origin version hsafe place entry hfind :=
    h.origin version hsafe place entry ((hpath version hsafe _).1 hfind)
  installed version hhas := by
    rcases hinstalled version hhas with hbefore | hthere
    · obtain ⟨result, hfind⟩ := h.installed version hbefore
      exact ⟨result, (hpath version (hbefore.isSafe hknown) result).2 hfind⟩
    · exact hthere
  absent := by
    refine forall_mem_split.2 ⟨habsent, fun x hx hdownloading result hfind => ?_⟩
    have hmem : x ∈ before ++ call :: after := mem_split.2 (.inr hx)
    have hsafe := hknown.safe x hmem (Stage.isAdmitted_of_isDownloading hdownloading)
    exact h.absent x hmem hdownloading result ((hpath _ hsafe result).1 hfind)
  content := forall_mem_split.2 ⟨hcontent, (forall_mem_split.1 h.content).2⟩
  written := by
    refine forall_mem_split.2 ⟨hwritten, fun x hx hxWritten => ?_⟩
    have hmem : x ∈ before ++ call :: after := mem_split.2 (.inr hx)
    obtain ⟨place, mode, content, hfind, hbrought⟩ := h.written x hmem hxWritten
    refine ⟨place, mode, content, ?_, hbrought⟩
    rcases hpartial with hdisk | ⟨htouches, hheld⟩
    · dsimp only
      rw [hdisk]
      exact hfind
    · -- another call about this version would hold the lock too
      have hdownloading := Stage.isDownloading_of_isWritten hxWritten
      have hne := hlocks.version_ne_of_isDownloading hheld hx hdownloading
      have hsafe := hknown.safe x hmem (Stage.isAdmitted_of_isDownloading hdownloading)
      exact (htouches.find_partialPath hsafe hne).trans hfind

/-- A call goes on that leaves the disk and neither downloads nor tells of a compiler. -/
theorem pass (h : Files c disk brought ⟨before ++ call :: after, s⟩)
    (hlocks : LocksMatch (before ++ call :: after) s.memory)
    (hknown : Knowledge c ⟨before ++ call :: after, s⟩) (hdisk : s'.disk = s.disk)
    (hpaths : ∀ other, s'.memory.path? other = s.memory.path? other)
    (hdownloading : stage.isDownloading = false) (hrecording : stage.isRecording = false) :
    Files c disk brought ⟨before ++ ⟨call.version, stage⟩ :: after, s'⟩ := by
  refine h.keep hlocks hknown ?_ (.inl hdisk) (fun other hhas => .inl ?_) ?_ ?_ ?_
  · intro other _ result
    rw [hdisk]
  · exact hhas.of_split (fun _ => hpaths _) hrecording
  · intro hstage
    rw [hstage] at hdownloading
    cases hdownloading
  · rintro lock content rfl
    cases hdownloading
  · intro hstage
    rw [Stage.isDownloading_of_isWritten hstage] at hdownloading
    cases hdownloading

/-- A call renames what it has written. -/
theorem rename (h : Files c disk brought ⟨before ++ call :: after, s⟩)
    (hlocks : LocksMatch (before ++ call :: after) s.memory)
    (hknown : Knowledge c ⟨before ++ call :: after, s⟩) {lock : Nat}
    (hstage : call.stage = .renaming lock) {d : Disk}
    (hrenamed : s.disk.rename (c.partialPath call.version) (c.path call.version) = .ok d) :
    Files c disk brought
      ⟨before ++ ⟨call.version, .recording lock true⟩ :: after, { s with disk := d }⟩ := by
  have hcall : call ∈ before ++ call :: after := mem_split.2 (.inl rfl)
  have hsafe : Version.isSafe call.version.toList = true := hknown.safe call hcall (by rw [hstage]; rfl)
  obtain ⟨place, mode, content, hfile, hbrought⟩ := h.written call hcall (by rw [hstage]; rfl)
  obtain ⟨htouches, goal, hgoal⟩ := rename_partialPath hsafe hrenamed hfile
  -- no other call about this version downloads
  have hothers : ∀ x ∈ before ++ after, x.stage.isDownloading = true → x.version ≠ call.version ∧
      x ∈ before ++ call :: after ∧ Version.isSafe x.version.toList = true := by
    intro x hx hdownloading
    have hmem : x ∈ before ++ call :: after := mem_split.2 (.inr hx)
    exact ⟨hlocks.version_ne_of_isDownloading (by rw [hstage]; rfl) hx hdownloading, hmem,
      hknown.safe x hmem (Stage.isAdmitted_of_isDownloading hdownloading)⟩
  refine ⟨?_, ?_, forall_mem_split.2 ⟨nofun, ?_⟩,
    forall_mem_split.2 ⟨nofun, (forall_mem_split.1 h.content).2⟩, forall_mem_split.2 ⟨nofun, ?_⟩⟩
  · intro version hversion place' entry hfind
    by_cases heq : version = call.version
    · subst heq
      dsimp only at hfind
      rw [hgoal, Except.ok.injEq, Prod.mk.injEq] at hfind
      exact .inr ⟨mode, content, hfind.2.symm, hbrought⟩
    · exact h.origin version hversion place' entry ((htouches.find_path hversion heq).symm.trans hfind)
  · intro version hhas
    by_cases heq : version = call.version
    · subst heq
      exact ⟨_, hgoal⟩
    · have hbefore : Crowd.HasInstalled ⟨before ++ call :: after, s⟩ version := by
        rw [Crowd.hasInstalled_split_iff] at hhas ⊢
        rcases hhas with hknown | ⟨hversion, -⟩ | hothers
        · exact .inl hknown
        · exact absurd hversion.symm heq
        · exact .inr (.inr hothers)
      obtain ⟨result, hfind⟩ := h.installed version hbefore
      exact ⟨result, (htouches.find_path (hbefore.isSafe hknown) heq).trans hfind⟩
  · intro x hx hdownloading result hfind
    obtain ⟨hne, hmem, hxSafe⟩ := hothers x hx hdownloading
    exact h.absent x hmem hdownloading result ((htouches.find_path hxSafe hne).symm.trans hfind)
  · intro x hx hwritten
    obtain ⟨hne, hmem, hxSafe⟩ := hothers x hx (Stage.isDownloading_of_isWritten hwritten)
    obtain ⟨place, mode, content, hfind, hbrought⟩ := h.written x hmem hwritten
    exact ⟨place, mode, content, (htouches.find_partialPath hxSafe hne).trans hfind, hbrought⟩

/-- Whatever a call does, the files are as they should be. -/
theorem transition (h : Files c disk brought ⟨before ++ call :: after, s⟩)
    (hlocks : LocksMatch (before ++ call :: after) s.memory)
    (hknown : Knowledge c ⟨before ++ call :: after, s⟩)
    (hreply : ∀ lock address reply content, call.stage = .requesting lock address →
      move.reply? = some reply → downloaded call.version reply = .ok content →
      brought call.version content)
    (ht : Transition c call.version move call.stage s stage s') :
    Files c disk brought ⟨before ++ ⟨call.version, stage⟩ :: after, s'⟩ := by
  have hcall : call ∈ before ++ call :: after := mem_split.2 (.inl rfl)
  have hsafe := hknown.safe call hcall
  have habsent := h.absent call hcall
  have hcontent := h.content call hcall
  have hwritten := h.written call hcall
  obtain ⟨version, old⟩ := call
  dsimp only at ht hsafe habsent hcontent hwritten hreply ⊢
  cases ht with
  | stay => exact h
  | refuse => exact h.pass hlocks hknown rfl (fun _ => rfl) rfl rfl
  | meet => exact h.pass hlocks hknown rfl (fun _ => rfl) rfl rfl
  | miss => exact h.pass hlocks hknown rfl (fun _ => rfl) rfl rfl
  | take taken => exact h.pass hlocks hknown rfl (fun _ => Memory.path?_of_takeLock taken) rfl rfl
  | hold => exact h.pass hlocks hknown rfl (fun _ => rfl) rfl rfl
  | meetAgain => exact h.pass hlocks hknown rfl (fun _ => rfl) rfl rfl
  | missAgain => exact h.pass hlocks hknown rfl (fun _ => rfl) rfl rfl
  | find found =>
    refine h.keep hlocks hknown (fun _ _ _ => .rfl) (.inl rfl) ?_ nofun nofun nofun
    intro other hhas
    rcases Crowd.hasInstalled_split_iff.1 hhas with hknows | ⟨hversion, -⟩ | hothers
    · exact .inl (.inl hknows)
    · exact .inr (hversion ▸ Disk.exists?_eq_true_iff.1 found)
    · exact .inl (Crowd.hasInstalled_split_iff.2 (.inr (.inr hothers)))
  | request missing =>
    refine h.keep hlocks hknown (fun _ _ _ => .rfl) (.inl rfl) ?_ (fun _ => ?_) nofun nofun
    · exact fun other hhas => .inl (hhas.of_split (fun _ => rfl) rfl)
    · rw [Disk.exists?_eq_false_iff.1 missing]
      exact nofun
  | receive replied hbrought =>
    refine h.keep hlocks hknown (fun _ _ _ => .rfl) (.inl rfl) ?_ (fun _ => habsent rfl) ?_ nofun
    · exact fun other hhas => .inl (hhas.of_split (fun _ => rfl) rfl)
    · rintro _ _ ⟨⟩
      exact hreply _ _ _ _ rfl replied hbrought
  | write written =>
    obtain ⟨htouches, hpath, place, mode, hfile⟩ := write_partialPath (hsafe rfl) written
    refine h.keep hlocks hknown hpath (.inr ⟨htouches, rfl⟩) ?_ ?_ nofun ?_
    · exact fun other hhas => .inl (hhas.of_split (fun _ => rfl) rfl)
    · exact fun _ result hfind => habsent rfl result ((hpath version (hsafe rfl) result).1 hfind)
    · exact fun _ => ⟨place, mode, _, hfile, hcontent _ _ rfl⟩
  | mark marked =>
    obtain ⟨htouches, hpath, hfile⟩ := setMode_partialPath (hsafe rfl) marked
    obtain ⟨place, mode, content, hbefore, hbrought⟩ := hwritten rfl
    refine h.keep hlocks hknown hpath (.inr ⟨htouches, rfl⟩) ?_ ?_ nofun ?_
    · exact fun other hhas => .inl (hhas.of_split (fun _ => rfl) rfl)
    · exact fun _ result hfind => habsent rfl result ((hpath version (hsafe rfl) result).1 hfind)
    · exact fun _ => ⟨place, _, content, hfile place mode content hbefore, hbrought⟩
  | rename renamed => exact h.rename hlocks hknown rfl renamed
  | record =>
    refine h.keep hlocks hknown (fun _ _ _ => .rfl) (.inl rfl) ?_ nofun nofun nofun
    intro other hhas
    refine .inl (Crowd.hasInstalled_split_iff.2 ?_)
    rcases Crowd.hasInstalled_split_iff.1 hhas with hknows | ⟨-, hrecording⟩ | hothers
    · rw [Memory.path?_install] at hknows
      split at hknows
      · next heq => exact .inr (.inl ⟨heq.symm, rfl⟩)
      · exact .inl hknows
    · cases hrecording
    · exact .inr (.inr hothers)
  | fail => exact h.pass hlocks hknown rfl (fun _ => rfl) rfl rfl
  | failWriting written =>
    obtain ⟨htouches, hpath, -⟩ := write_partialPath (hsafe rfl) written
    refine h.keep hlocks hknown hpath (.inr ⟨htouches, rfl⟩) ?_ nofun nofun nofun
    exact fun other hhas => .inl (hhas.of_split (fun _ => rfl) rfl)
  | letGo => exact h.pass hlocks hknown rfl (fun _ => rfl) rfl rfl
  | drop => exact h.pass hlocks hknown rfl (fun _ => rfl) rfl rfl
  | leave => exact h.pass hlocks hknown rfl (fun _ => Memory.path?_forgetLock) rfl rfl
  | giveUpWaiting => exact h.pass hlocks hknown rfl (fun _ => rfl) rfl rfl
  | giveUpHolding => exact h.pass hlocks hknown rfl (fun _ => rfl) rfl rfl

theorem play (h : Files c disk brought crowd)
    (hlocks : LocksMatch crowd.calls crowd.shared.memory) (hknown : Knowledge c crowd)
    (hreply : ∀ (i lock : Nat) (version address : String) reply content,
      crowd.calls[i]? = some ⟨version, .requesting lock address⟩ → move = .reply i reply →
      downloaded version reply = .ok content → brought version content) :
    Files c disk brought (crowd.play c move) := by
  rcases crowd.play_cases c move with ⟨version, -, hplay⟩ | hplay |
    ⟨before, ⟨version, old⟩, after, stage, s, hcalls, hmove, hplay, ht⟩
  · rw [hplay]
    exact h.arrive
  · rw [hplay]
    exact h
  · obtain ⟨calls, shared⟩ := crowd
    dsimp only at hcalls
    subst hcalls
    rw [hplay]
    refine h.transition hlocks hknown ?_ ht
    rintro lock address reply content rfl hreplied hbrought
    refine hreply before.length lock version address reply content (by simp) ?_ hbrought
    cases move <;> simp_all [Move.call?, Move.reply?]

end Files

/-! ## Where contents come from -/

/-- In a run the content was the complete body of a successful reply to a call about the version, which had asked
at the address that the version has behind the base of all downloads. -/
def Brought (c : Cache) (disk : Disk) (moves : List Move) (version : String) (content : Bytes) : Prop :=
  ∃ before i lock reply after, moves = before ++ .reply i (.ok reply) :: after ∧
    ((Crowd.start disk).run c before).calls[i]?
      = some ⟨version, .requesting lock (c.downloadBase ++ version)⟩ ∧
    Http.isSuccess reply.status = true ∧ reply.content = .ok content

theorem downloaded_eq_ok_iff {reply : Except Http.TransferError Http.Reply} {content : Bytes} :
    downloaded version reply = .ok content ↔
      ∃ r, reply = .ok r ∧ Http.isSuccess r.status = true ∧ r.content = .ok content := by
  unfold downloaded
  cases reply with
  | error e => simp
  | ok r =>
    cases hstatus : Http.isSuccess r.status with
    | false => simp [hstatus]
    | true => cases hcontent : r.content <;> simp [hstatus, hcontent]

/-- In a run every call asks at the address of its version. -/
theorem Crowd.address_run (c : Cache) (disk : Disk) (moves : List Move) {i : Nat} {call : Call}
    {address : String} (hcall : ((start disk).run c moves).calls[i]? = some call)
    (h : call.stage.address? = some address) : address = c.url call.version := by
  induction moves using List.reverseRecOn generalizing i call with
  | nil => cases hcall
  | append_singleton moves move ih =>
    rw [run_concat] at hcall
    rcases getElem?_play hcall with ⟨-, hstage⟩ | hsame | ⟨x, hx, hversion, -, ht⟩
    · rw [hstage] at h
      cases h
    · exact ih hsame h
    · rw [hversion]
      exact (ht.address? h).elim id (ih hx)

/-- In a run the files are at any time as they should be. -/
theorem Files.run (c : Cache) (disk : Disk) (moves : List Move) :
    Files c disk (Brought c disk moves) ((Crowd.start disk).run c moves) := by
  induction moves using List.reverseRecOn with
  | nil => exact start c disk _
  | append_singleton moves move ih =>
    rw [Crowd.run_concat]
    refine (ih.mono ?_).play (.run disk moves) (.run disk moves) ?_
    · rintro version content ⟨before, i, lock, reply, after, rfl, hreplied⟩
      exact ⟨before, i, lock, reply, after ++ [move], by simp, hreplied⟩
    · rintro i lock version address reply content hcall rfl hbrought
      obtain ⟨r, rfl, hstatus, hcontent⟩ := downloaded_eq_ok_iff.1 hbrought
      have haddress : address = c.downloadBase ++ version := Crowd.address_run c disk moves hcall rfl
      subst haddress
      exact ⟨moves, i, lock, r, [], rfl, hcall, hstatus, hcontent⟩

/-! ## What one call changes -/

/-- A call changes the file of a version only when it renames what it has written. -/
theorem Transition.path_cases {stage stage' : Stage} (ht : Transition c version move stage s stage' s')
    (hsafe : stage.isAdmitted = true → Version.isSafe version.toList = true) :
    (∀ other, Version.isSafe other.toList = true → ∀ result,
      s'.disk.find (c.path other) = .ok result ↔ s.disk.find (c.path other) = .ok result) ∨
    ∃ lock, stage = .renaming lock ∧ stage' = .recording lock true ∧
      s.disk.rename (c.partialPath version) (c.path version) = .ok s'.disk := by
  cases ht with
  | write written =>
    obtain ⟨-, hpath, -⟩ := write_partialPath (hsafe rfl) written
    exact .inl hpath
  | mark marked =>
    obtain ⟨-, hpath, -⟩ := setMode_partialPath (hsafe rfl) marked
    exact .inl hpath
  | rename renamed => exact .inr ⟨_, rfl, rfl, renamed⟩
  | failWriting written =>
    obtain ⟨-, hpath, -⟩ := write_partialPath (hsafe rfl) written
    exact .inl hpath
  | _ => exact .inl fun _ _ _ => .rfl

/-- A call that is not about to tell of a compiler leaves what is known. -/
theorem Transition.path?_of_not_recording {stage stage' : Stage}
    (ht : Transition c version move stage s stage' s') (h : stage.isRecording = false)
    (other : String) : s'.memory.path? other = s.memory.path? other := by
  cases ht with
  | take taken => exact Memory.path?_of_takeLock taken
  | record => cases h
  | leave => exact Memory.path?_forgetLock
  | _ => rfl

/-- A file that has the name of a version stays. -/
theorem Files.find_play (h : Files c disk brought crowd)
    (hknown : Knowledge c crowd) (hsafe : Version.isSafe version.toList = true)
    {result : Place × Entry} (hfind : crowd.shared.disk.find (c.path version) = .ok result) :
    (crowd.play c move).shared.disk.find (c.path version) = .ok result := by
  rcases crowd.play_cases c move with ⟨_, -, hplay⟩ | hplay |
    ⟨before, call, after, stage, s, hcalls, -, hplay, ht⟩
  · rwa [hplay]
  · rwa [hplay]
  · rw [hplay]
    have hcall : call ∈ crowd.calls := by simp [hcalls]
    rcases ht.path_cases (hknown.safe call hcall) with hpath | ⟨lock, hstage, -, hrenamed⟩
    · exact (hpath version hsafe result).2 hfind
    · have hcallSafe := hknown.safe call hcall (by rw [hstage]; rfl)
      obtain ⟨place, mode, content, hfile, -⟩ := h.written call hcall (by rw [hstage]; rfl)
      obtain ⟨htouches, -⟩ := rename_partialPath hcallSafe hrenamed hfile
      -- the version that is renamed had no file
      have hne : version ≠ call.version := by
        rintro rfl
        exact h.absent call hcall (by rw [hstage]; rfl) result hfind
      exact (htouches.find_path hsafe hne).trans hfind

end Provenance.Cache
