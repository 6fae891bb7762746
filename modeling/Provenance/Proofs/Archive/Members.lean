import Mathlib.Data.List.Infix
import Provenance.Archive.Tar
import Provenance.Proofs.Except

/-!
# The members of archives

The bytes of an archive are header blocks and contents in blocks. `Archive.Finds` says which of them hold the
first regular file with a name that is looked for, and how many its header announces. It is what is found
(`Archive.findFile_eq_ok_some_iff`): all of the announced bytes, or those that there are if the archive ends
before.
-/

namespace Provenance.Archive

variable {bytes rest content filler : Bytes} {flaw : Option Flaw} {n : Nat}

/-! ## Streams -/

namespace Stream

theorem block_of_le (h : blockSize ≤ bytes.length) :
    (⟨bytes, flaw⟩ : Stream).block = .ok (some (bytes.take blockSize, ⟨bytes.drop blockSize, flaw⟩)) :=
  if_pos h

theorem block_eq_ok_some_iff {block : Bytes} {s : Stream} :
    (⟨bytes, flaw⟩ : Stream).block = .ok (some (block, s)) ↔
      block.length = blockSize ∧ ∃ rest, bytes = block ++ rest ∧ s = ⟨rest, flaw⟩ := by
  constructor
  · intro h
    by_cases hle : blockSize ≤ bytes.length
    · rw [block_of_le hle] at h
      cases h
      exact ⟨List.length_take_of_le hle, _, (List.take_append_drop _ _).symm, rfl⟩
    · rw [Stream.block, if_neg hle] at h
      dsimp only at h
      split at h
      · cases h
      · split at h <;> cases h
  · rintro ⟨hlength, rest, rfl, rfl⟩
    rw [block_of_le (by simp [hlength]), List.take_left' hlength, List.drop_left' hlength]

/-- What is read are as many bytes as are wanted, or all that there are if nothing is wrong after them. -/
theorem read_eq_ok_iff : (⟨bytes, flaw⟩ : Stream).read n = .ok content ↔
    (n ≤ bytes.length ∧ content = bytes.take n) ∨ (bytes.length < n ∧ flaw = none ∧ content = bytes) := by
  unfold Stream.read
  by_cases hle : n ≤ bytes.length
  · simp [hle, Nat.not_lt.2 hle, eq_comm]
  · cases flaw <;> simp [hle, Nat.not_le.1 hle, eq_comm]

theorem skip_eq_ok_iff {s : Stream} : (⟨bytes, flaw⟩ : Stream).skip n = .ok s ↔
    ∃ passed rest, passed.length = n ∧ bytes = passed ++ rest ∧ s = ⟨rest, flaw⟩ := by
  unfold Stream.skip
  constructor
  · intro h
    split at h
    · next hle =>
      cases h
      exact ⟨_, _, List.length_take_of_le hle, (List.take_append_drop _ _).symm, rfl⟩
    · cases h
  · rintro ⟨passed, rest, rfl, rfl, rfl⟩
    simp

end Stream

/-! ## Headers and descriptions -/

/-- A header is that of a member, and not of a description of the next one. -/
structure Header.IsOrdinary (h : Header) : Prop where
  longName : h.isSpecial 'L' = false
  longLink : h.isSpecial 'K' = false
  extended : h.isSpecial 'x' = false
  sparse : h.kind.toNat = 'S'.toNat → h.format = .gnu

/-- A header is that of a description of the next member, of a kind of which none came before. -/
inductive Header.Describes (h : Header) (content : Bytes) : Descriptions → Descriptions → Prop
  | longName {told} (special : h.isSpecial 'L' = true) (fresh : told.longName = none) :
    h.Describes content told { told with longName := some content }
  | longLink {told} (name : h.isSpecial 'L' = false) (special : h.isSpecial 'K' = true)
    (fresh : told.longLink = none) : h.Describes content told { told with longLink := some content }
  | extended {told} (name : h.isSpecial 'L' = false) (link : h.isSpecial 'K' = false)
    (special : h.isSpecial 'x' = true) (fresh : told.extended = none) :
    h.Describes content told { told with extended := some content }

/-- A content of an announced size, with what fills its last block. -/
structure IsPadded (size : Nat) (content filler : Bytes) : Prop where
  length : content.length = size
  blocks : content.length + filler.length = paddedSize size

/-- Bytes begin with the header of a member, perhaps after descriptions of it: `Heads told bytes path isFile
size rest` says what the member is and which bytes follow its header. -/
inductive Heads : Descriptions → Bytes → Bytes → Bool → Nat → Bytes → Prop
  | header {told block h rest} (full : block.length = blockSize) (filled : ∃ b ∈ block, b ≠ 0)
    (read : Header.ofBlock block = .ok h) (ordinary : h.IsOrdinary) :
    Heads told (block ++ rest) (told.path h) h.isFile (told.size h) rest
  | described {told told' block h content filler bytes path isFile size rest}
    (full : block.length = blockSize) (filled : ∃ b ∈ block, b ≠ 0)
    (read : Header.ofBlock block = .ok h) (describes : h.Describes content told told')
    (padded : IsPadded (told.size h) content filler) (next : Heads told' bytes path isFile size rest) :
    Heads told (block ++ (content ++ (filler ++ bytes))) path isFile size rest

theorem le_paddedSize (size : Nat) : size ≤ paddedSize size := by
  unfold paddedSize blockSize
  omega

/-- A content and what fills its last block are what is passed over. -/
theorem exists_isPadded {size : Nat} {passed : Bytes} (h : passed.length = paddedSize size) :
    IsPadded size (passed.take size) (passed.drop size) := by
  have hle := le_paddedSize size
  constructor
  · rw [List.length_take]
    omega
  · rw [List.length_take, List.length_drop]
    omega

theorem IsPadded.read {size : Nat} (h : IsPadded size content filler) :
    (⟨content ++ (filler ++ rest), flaw⟩ : Stream).read size = .ok content := by
  rw [Stream.read_eq_ok_iff]
  refine .inl ⟨by simp [← h.length], ?_⟩
  rw [List.take_left' h.length]

theorem IsPadded.skip {size : Nat} (h : IsPadded size content filler) :
    (⟨content ++ (filler ++ rest), flaw⟩ : Stream).skip (paddedSize size) = .ok ⟨rest, flaw⟩ :=
  Stream.skip_eq_ok_iff.2 ⟨content ++ filler, rest, by rw [List.length_append, h.blocks], by simp, rfl⟩

/-! ## The next member -/

section
variable {told : Descriptions} {block : Bytes} {h : Header} {fuel : Nat}

/-- Goes on to the next member after a description of it, if there was none of the kind. -/
def describe (fuel : Nat) (size : Nat) (s : Stream) (known : Option Bytes) (tell : Bytes → Descriptions) :
    Except Flaw (Option Member) :=
  match known with
  | some _ => .error .describedTwice
  | none => do
    let content ← s.read size
    let s ← s.skip (paddedSize size)
    nextMember fuel (tell content) s

/-- Goes on after a header. -/
def afterHeader (fuel : Nat) (told : Descriptions) (h : Header) (s : Stream) : Except Flaw (Option Member) :=
  if h.isSpecial 'L' then
    describe fuel (told.size h) s told.longName fun c => { told with longName := some c }
  else if h.isSpecial 'K' then
    describe fuel (told.size h) s told.longLink fun c => { told with longLink := some c }
  else if h.isSpecial 'x' then
    describe fuel (told.size h) s told.extended fun c => { told with extended := some c }
  else if h.kind.toNat = 'S'.toNat && h.format ≠ .gnu then .error .strangeSparse
  else .ok (some ⟨told.path h, h.isFile, s.read (told.size h), s.skip (paddedSize (told.size h))⟩)

theorem nextMember_of_header (full : block.length = blockSize) (filled : ∃ b ∈ block, b ≠ 0)
    (read : Header.ofBlock block = .ok h) :
    nextMember (fuel + 1) told ⟨block ++ rest, flaw⟩ = afterHeader fuel told h ⟨rest, flaw⟩ := by
  have hblock : (⟨block ++ rest, flaw⟩ : Stream).block = .ok (some (block, ⟨rest, flaw⟩)) :=
    Stream.block_eq_ok_some_iff.2 ⟨full, rest, rfl, rfl⟩
  have hfilled : ¬ block.all (· = 0) = true := by simpa using filled
  rw [nextMember, hblock]
  show (if block.all (· = 0) = true then _ else _) = _
  rw [if_neg hfilled, read]
  rfl

/-- A member is met only after a header. -/
theorem exists_header_of_nextMember {m : Member}
    (h : nextMember (fuel + 1) told ⟨bytes, flaw⟩ = .ok (some m)) :
    ∃ block header rest, block.length = blockSize ∧ (∃ b ∈ block, b ≠ 0) ∧ Header.ofBlock block = .ok header ∧
      bytes = block ++ rest ∧ afterHeader fuel told header ⟨rest, flaw⟩ = .ok (some m) := by
  have habsent : (if told.isNone then .ok none else .error .describedNothing : Except Flaw (Option Member))
      ≠ .ok (some m) := by
    split <;> nofun
  have hstep := h
  rw [nextMember] at h
  obtain ⟨found, hblock, h⟩ := bind_eq_ok_iff.1 h
  cases found with
  | none => exact absurd h habsent
  | some found =>
    obtain ⟨block, s⟩ := found
    obtain ⟨full, rest, rfl, rfl⟩ := Stream.block_eq_ok_some_iff.1 hblock
    dsimp only at h
    split at h
    · exact absurd h habsent
    · next hfilled =>
      obtain ⟨header, hread, -⟩ := bind_eq_ok_iff.1 h
      have hfilled : ∃ b ∈ block, b ≠ 0 := by simpa using hfilled
      rw [nextMember_of_header full hfilled hread] at hstep
      exact ⟨block, header, rest, full, hfilled, hread, rfl, hstep⟩

theorem describe_eq_ok_iff {size : Nat} {known : Option Bytes} {tell : Bytes → Descriptions}
    {found : Option Member} : describe fuel size ⟨bytes, flaw⟩ known tell = .ok found ↔
      known = none ∧ ∃ content filler rest, bytes = content ++ (filler ++ rest) ∧ IsPadded size content filler ∧
        nextMember fuel (tell content) ⟨rest, flaw⟩ = .ok found := by
  cases known with
  | some _ => simp [describe]
  | none =>
    simp only [describe, bind_eq_ok_iff, true_and]
    constructor
    · rintro ⟨content, hread, s, hskip, hnext⟩
      obtain ⟨passed, rest, hpassed, rfl, rfl⟩ := Stream.skip_eq_ok_iff.1 hskip
      have hpadded := exists_isPadded hpassed
      refine ⟨passed.take size, passed.drop size, rest, by rw [← List.append_assoc, List.take_append_drop],
        hpadded, ?_⟩
      rw [← List.take_append_drop size passed, List.append_assoc, hpadded.read] at hread
      cases hread
      exact hnext
    · rintro ⟨content, filler, rest, rfl, hpadded, hnext⟩
      exact ⟨content, hpadded.read, _, hpadded.skip, hnext⟩

/-- The member that a header begins, in what follows the header. -/
def memberAt (path : Bytes) (isFile : Bool) (size : Nat) (s : Stream) : Member :=
  ⟨path, isFile, s.read size, s.skip (paddedSize size)⟩

/-- A header is followed by its member, or by what it tells of the next one. -/
theorem afterHeader_eq_ok_some_iff {m : Member} : afterHeader fuel told h ⟨bytes, flaw⟩ = .ok (some m) ↔
    (h.IsOrdinary ∧ m = memberAt (told.path h) h.isFile (told.size h) ⟨bytes, flaw⟩) ∨
      ∃ told' content filler rest, h.Describes content told told' ∧ bytes = content ++ (filler ++ rest) ∧
        IsPadded (told.size h) content filler ∧ nextMember fuel told' ⟨rest, flaw⟩ = .ok (some m) := by
  constructor
  · intro hnext
    unfold afterHeader at hnext
    split at hnext
    · next hspecial =>
      obtain ⟨hfresh, content, filler, rest, hbytes, hpadded, hnext⟩ := describe_eq_ok_iff.1 hnext
      exact .inr ⟨_, content, filler, rest, .longName hspecial hfresh, hbytes, hpadded, hnext⟩
    next hname =>
    have hname : h.isSpecial 'L' = false := by simpa using hname
    split at hnext
    · next hspecial =>
      obtain ⟨hfresh, content, filler, rest, hbytes, hpadded, hnext⟩ := describe_eq_ok_iff.1 hnext
      exact .inr ⟨_, content, filler, rest, .longLink hname hspecial hfresh, hbytes, hpadded, hnext⟩
    next hlink =>
    have hlink : h.isSpecial 'K' = false := by simpa using hlink
    split at hnext
    · next hspecial =>
      obtain ⟨hfresh, content, filler, rest, hbytes, hpadded, hnext⟩ := describe_eq_ok_iff.1 hnext
      exact .inr ⟨_, content, filler, rest, .extended hname hlink hspecial hfresh, hbytes, hpadded, hnext⟩
    next hextended =>
    split at hnext
    · cases hnext
    · next hsparse =>
      cases hnext
      exact .inl ⟨⟨hname, hlink, by simpa using hextended, by simpa using hsparse⟩, rfl⟩
  · rintro (⟨ordinary, rfl⟩ | ⟨told', content, filler, rest, hdescribes, hbytes, hpadded, hnext⟩)
    · have hsparse : ¬ (h.kind.toNat = 'S'.toNat && h.format ≠ .gnu) = true := by
        simpa using ordinary.sparse
      rw [afterHeader, ordinary.longName, ordinary.longLink, ordinary.extended, if_neg hsparse]
      rfl
    · have hdescribe : ∀ known (tell : Bytes → Descriptions), known = none → tell content = told' →
          describe fuel (told.size h) ⟨bytes, flaw⟩ known tell = .ok (some m) := by
        rintro known tell hknown rfl
        exact describe_eq_ok_iff.2 ⟨hknown, content, filler, rest, hbytes, hpadded, hnext⟩
      cases hdescribes with
      | longName special fresh =>
        rw [afterHeader, special]
        exact hdescribe _ _ fresh rfl
      | longLink name special fresh =>
        rw [afterHeader, name, special]
        exact hdescribe _ _ fresh rfl
      | extended name link special fresh =>
        rw [afterHeader, name, link, special]
        exact hdescribe _ _ fresh rfl

/-- The next member is the one that a header says, among the bytes after the header. -/
theorem nextMember_of_heads {path : Bytes} {isFile : Bool} {size : Nat}
    (hheads : Heads told bytes path isFile size rest) (flaw : Option Flaw) (hfuel : bytes.length < fuel) :
    nextMember fuel told ⟨bytes, flaw⟩ = .ok (some (memberAt path isFile size ⟨rest, flaw⟩)) := by
  induction hheads generalizing fuel with
  | @header told block h rest full filled read ordinary =>
    obtain ⟨fuel, rfl⟩ := Nat.exists_eq_add_of_lt hfuel
    rw [nextMember_of_header full filled read]
    exact afterHeader_eq_ok_some_iff.2 (.inl ⟨ordinary, rfl⟩)
  | @described told told' block h content filler bytes path isFile size rest full filled read describes padded
      next ih =>
    obtain ⟨fuel, rfl⟩ := Nat.exists_eq_add_one_of_ne_zero (Nat.ne_zero_of_lt hfuel)
    -- the block alone takes as many bytes as one step
    have hblock : 0 < block.length := full ▸ Nat.zero_lt_succ _
    simp only [List.length_append] at hfuel
    rw [nextMember_of_header full filled read]
    exact afterHeader_eq_ok_some_iff.2
      (.inr ⟨told', content, filler, bytes, describes, rfl, padded, ih (by omega)⟩)

/-- The next member is one that a header says. -/
theorem heads_of_nextMember {m : Member} (hnext : nextMember fuel told ⟨bytes, flaw⟩ = .ok (some m)) :
    ∃ path isFile size rest, Heads told bytes path isFile size rest ∧
      m = memberAt path isFile size ⟨rest, flaw⟩ := by
  induction fuel generalizing told bytes with
  | zero => cases hnext
  | succ fuel ih =>
    obtain ⟨block, h, rest, full, filled, read, rfl, hafter⟩ := exists_header_of_nextMember hnext
    rcases afterHeader_eq_ok_some_iff.1 hafter with ⟨ordinary, rfl⟩ |
      ⟨told', content, filler, bytes, describes, rfl, padded, hnext⟩
    · exact ⟨_, _, _, _, .header full filled read ordinary, rfl⟩
    · obtain ⟨path, isFile, size, rest, hheads, rfl⟩ := ih hnext
      exact ⟨path, isFile, size, rest, .described full filled read describes padded hheads, rfl⟩

end

/-! ## Files -/

/-- The name of a member begins in a certain way. -/
def IsNamed (front : String) (path : Bytes) : Prop :=
  ∃ name, lastName? path = some name ∧ front.toList <+: name.toList

/-- Bytes of an archive hold a regular file whose name begins in a certain way, and it is the first of them:
`Finds front bytes size rest` says how many bytes its header announces, and what follows the header. -/
inductive Finds (front : String) : Bytes → Nat → Bytes → Prop
  | here {bytes path size rest} (heads : Heads .none bytes path true size rest) (named : IsNamed front path) :
    Finds front bytes size rest
  | later {bytes path isFile size content filler next size' rest}
    (heads : Heads .none bytes path isFile size (content ++ (filler ++ next)))
    (unwanted : isFile = true → ¬ IsNamed front path) (padded : IsPadded size content filler)
    (finds : Finds front next size' rest) : Finds front bytes size' rest

section
variable {front : String} {fuel : Nat}

/-- A header takes a block. -/
theorem Heads.length_lt {told : Descriptions} {path : Bytes} {isFile : Bool} {size : Nat}
    (h : Heads told bytes path isFile size rest) : rest.length < bytes.length := by
  have hblock : ∀ {block : Bytes}, block.length = blockSize → 0 < block.length := fun h => h ▸ Nat.zero_lt_succ _
  induction h with
  | header full =>
    have hblock := hblock full
    rw [List.length_append]
    omega
  | described full _ _ _ _ _ ih =>
    simp only [List.length_append]
    omega

theorem findFile_of_member {m : Member} {s : Stream}
    (h : nextMember (s.bytes.length + 1) .none s = .ok (some m)) :
    ((m.isFile = true ∧ IsNamed front m.path) ∧ findFile front (fuel + 1) s = m.content.map some) ∨
      ((m.isFile = true → ¬ IsNamed front m.path) ∧
        findFile front (fuel + 1) s = m.rest.bind (findFile front fuel)) := by
  rw [findFile, h]
  by_cases hwanted : m.isFile = true ∧ IsNamed front m.path
  · obtain ⟨hfile, name, hname, hfront⟩ := hwanted
    refine .inl ⟨⟨hfile, name, hname, hfront⟩, if_pos ?_⟩
    rw [hfile, hname]
    exact List.isPrefixOf_iff_prefix.2 hfront
  · refine .inr ⟨fun hfile hname => hwanted ⟨hfile, hname⟩, if_neg fun h => ?_⟩
    obtain ⟨hfile, hfront⟩ := Bool.and_eq_true_iff.1 h
    cases hname : lastName? m.path with
    | none =>
      rw [hname] at hfront
      cases hfront
    | some name =>
      rw [hname] at hfront
      exact hwanted ⟨hfile, name, hname, List.isPrefixOf_iff_prefix.1 hfront⟩

/-- What is found is the content of the first file of the name, as far as it can be read. -/
theorem findFile_eq_ok_some_iff (hfuel : bytes.length < fuel) :
    findFile front fuel ⟨bytes, flaw⟩ = .ok (some content) ↔
      ∃ size rest, Finds front bytes size rest ∧ (⟨rest, flaw⟩ : Stream).read size = .ok content := by
  constructor
  · clear hfuel
    intro hfind
    induction fuel generalizing bytes with
    | zero => cases hfind
    | succ fuel ih =>
      rcases hnext : nextMember (bytes.length + 1) .none ⟨bytes, flaw⟩ with e | - | m
      · rw [findFile, hnext] at hfind
        cases hfind
      · rw [findFile, hnext] at hfind
        cases hfind
      · obtain ⟨path, isFile, size, rest, hheads, rfl⟩ :=
          heads_of_nextMember hnext
        rcases @findFile_of_member front fuel _ _ hnext with ⟨⟨hfile, hname⟩, hstep⟩ | ⟨hunwanted, hstep⟩
        · obtain rfl : isFile = true := hfile
          rw [hfind] at hstep
          obtain ⟨_, hread, hsome⟩ := map_eq_ok_iff.1 hstep.symm
          cases hsome
          exact ⟨size, rest, .here hheads hname, hread⟩
        · rw [hfind] at hstep
          obtain ⟨s, hskip, hfind⟩ := bind_eq_ok_iff.1 hstep.symm
          obtain ⟨passed, next, hpassed, rfl, rfl⟩ := Stream.skip_eq_ok_iff.1 hskip
          obtain ⟨size', rest', hfinds, hread⟩ := ih hfind
          refine ⟨size', rest', .later ?_ hunwanted (exists_isPadded hpassed) hfinds, hread⟩
          rw [← List.append_assoc, List.take_append_drop]
          exact hheads
  · rintro ⟨size, rest, hfinds, hread⟩
    induction hfinds generalizing fuel with
    | @here bytes path size rest heads named =>
      obtain ⟨fuel, rfl⟩ := Nat.exists_eq_add_one_of_ne_zero (Nat.ne_zero_of_lt hfuel)
      have hnext := nextMember_of_heads heads flaw (Nat.lt_succ_self _)
      rcases @findFile_of_member front fuel _ _ hnext with ⟨-, hstep⟩ | ⟨hunwanted, -⟩
      · rw [hstep]
        exact map_eq_ok_iff.2 ⟨content, hread, rfl⟩
      · exact absurd named (hunwanted rfl)
    | @later bytes path isFile size content filler next size' rest heads unwanted padded _ ih =>
      obtain ⟨fuel, rfl⟩ := Nat.exists_eq_add_one_of_ne_zero (Nat.ne_zero_of_lt hfuel)
      have hnext := nextMember_of_heads heads flaw (Nat.lt_succ_self _)
      have hshorter := heads.length_lt
      simp only [List.length_append] at hshorter
      rcases @findFile_of_member front fuel _ _ hnext with ⟨⟨hfile, hname⟩, -⟩ | ⟨-, hstep⟩
      · exact absurd hname (unwanted hfile)
      · rw [hstep]
        exact bind_eq_ok_iff.2 ⟨_, padded.skip, ih (by omega) hread⟩

end

end Provenance.Archive
