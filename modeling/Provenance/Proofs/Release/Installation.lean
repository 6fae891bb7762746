import Provenance.Proofs.Http.Course
import Provenance.Proofs.Release.Unpacking
import Provenance.Proofs.Release.Writing
import Provenance.Proofs.Text.Order

/-!
# How releases are installed

An installation obtains the binary of a release and then puts it in place twice, under the release's tag and
under the default name. `Release.Course` lists how it may go and which names it has replaced by its end. From
this it follows that, whatever fails, each of the two names leads to the binary or to what it led to before, and
all other files are as they were (`Release.install_consistent`). The binary is the file that was downloaded, or
a file in it, of which something is missing if the archive ends too early.
-/

namespace Provenance.Release

variable {ν : Type} {o : Outside ν} {w : World ν} {directory releasesUrl : String} {tag : Option String}

theorem passive_fetch (releasesUrl : String) (tag : Option String) :
    Session.Passive o (fetch releasesUrl tag : Session ν _ _) := by
  unfold fetch
  refine .bind (.log _ _ _ _) fun _ => ((Session.Passive.get _ _).mapError _).bind fun reply => ?_
  split
  · exact .ofExcept _
  · exact .fail _

theorem passive_download (url : String) : Session.Passive o (download url : Session ν _ _) := by
  unfold download
  refine ((Session.Passive.get _ _).mapError _).bind fun reply => ?_
  split
  · exact .ofExcept _
  · exact .fail _

/-! ## What is obtained -/

/-- A reply of success was got from an address: a request for what is there was sent to it. -/
structure Got (o : Outside ν) (address accepted : String) (outside : ν) (reply : Http.Reply)
    (outside' : ν) : Prop where
  sent : ∃ exchanges, Http.Sent o address (fun url => ⟨.get, url,
    [("user-agent", "contract-verifier/0.3.0"), ("accept", accepted)], none⟩) outside exchanges (.ok reply) outside'
  success : 200 ≤ reply.status ∧ reply.status < 300

theorem got_of_get {address accepted : String} {reply : Http.Reply} {w' : World ν}
    (h : (Http.get address (headers accepted) : Session ν _ _) o w = (.ok reply, w'))
    (hsuccess : Http.isSuccess reply.status = true) : Got o address accepted w.outside reply w'.outside := by
  obtain ⟨exchanges, outcome, outside', hsent, hget⟩ :=
    Http.exists_sent o .get address (headers accepted) none w
  have hrun : (outcome, { w with outside := outside' }) = (.ok reply, w') := hget.symm.trans h
  cases hrun
  exact ⟨⟨exchanges, hsent⟩, by simpa [Http.isSuccess] using hsuccess⟩

/-- A release that is found was described under the address of its tag, or of the latest one. -/
theorem got_of_fetch {release : Release} {w' : World ν} (h : fetch releasesUrl tag o w = (.ok release, w')) :
    ∃ reply, Got o (releasesUrl ++ tag.elim "/latest" ("/tags/" ++ ·)) "application/vnd.github+json" w.outside
      reply w'.outside ∧ reply.json decoder = .ok release := by
  have haddress : (lookup releasesUrl tag).2 = releasesUrl ++ tag.elim "/latest" ("/tags/" ++ ·) := by
    cases tag with
    | none => rfl
    | some tag => exact String.append_assoc
  rw [← haddress]
  unfold fetch at h
  dsimp only at h
  rw [Session.log_bind_apply] at h
  obtain ⟨reply, w₁, hget, h⟩ := Session.bind_eq_ok_iff.1 h
  have hget := Session.mapError_apply_eq_ok_iff.1 hget
  split at h
  · next hsuccess =>
    obtain ⟨hresult, rfl⟩ := Prod.mk.inj h
    have hgot := got_of_get hget hsuccess
    exact ⟨reply, hgot, mapError_eq_ok_iff.1 hresult⟩
  · cases h

/-- A file that is downloaded came whole. (A reply without content brings an empty one.) -/
theorem got_of_download {url : String} {payload : Bytes} {w' : World ν}
    (h : download url o w = (.ok payload, w')) : ∃ reply, Got o url "*/*" w.outside reply w'.outside ∧
      (reply.isComplete = true ∧ payload = reply.body ∨ reply.status = 204 ∧ payload = []) := by
  unfold download at h
  obtain ⟨reply, w₁, hget, h⟩ := Session.bind_eq_ok_iff.1 h
  have hget := Session.mapError_apply_eq_ok_iff.1 hget
  split at h
  · next hsuccess =>
    obtain ⟨hresult, rfl⟩ := Prod.mk.inj h
    have hgot := got_of_get hget hsuccess
    refine ⟨reply, hgot, ?_⟩
    have hcontent := mapError_eq_ok_iff.1 hresult
    unfold Http.Reply.content at hcontent
    split at hcontent
    · next hbodiless =>
      cases hcontent
      refine .inr ⟨?_, rfl⟩
      have hsuccess := hgot.success
      simp only [Http.isBodiless, Bool.or_eq_true, decide_eq_true_eq] at hbodiless
      omega
    · split at hcontent
      · next hcomplete =>
        cases hcontent
        exact .inl ⟨hcomplete, rfl⟩
      · cases hcontent
  · cases h

/-- The binary of a release was obtained: the release was described under its address, its tag is in order and it
has a file for this platform, which was downloaded and, if it is an archive, unpacked. -/
structure Obtained (releasesUrl : String) (tag : Option String) (o : Outside ν) (w : World ν)
    (release : Release) (binary : Bytes) (w' : World ν) : Prop where
  safe : Version.isSafe release.tag.toList = true
  disk : w'.disk = w.disk
  obtained : ∃ outside description asset file payload,
    Got o (releasesUrl ++ tag.elim "/latest" ("/tags/" ++ ·)) "application/vnd.github+json" w.outside
      description outside ∧
    description.json decoder = .ok release ∧
    release.assets.find? (fun a => a.name = "resolc-x86_64-unknown-linux-musl" ||
      a.name = "resolc-x86_64-unknown-linux-musl.tar.gz") = some asset ∧
    Got o asset.url "*/*" outside file w'.outside ∧
    (file.isComplete = true ∧ payload = file.body ∨ file.status = 204 ∧ payload = []) ∧
    Unpacks asset.name payload binary

/-! ## How it goes -/

/-- How an installation goes: the tag and the binary, once it has them, the names that it has replaced, the
first first, its result and the world that it leaves. -/
inductive Course (directory releasesUrl : String) (tag : Option String) (o : Outside ν) (w : World ν) :
    Option (String × Bytes) → List String → Except SetupError Installed × World ν → Prop
  /-- The release is not found. -/
  | unfetched {w₀ e w₁ w'} (began : w.Reported w₀) (fetched : fetch releasesUrl tag o w₀ = (.error e, w₁))
    (ended : w₁.Reported w') :
    Course directory releasesUrl tag o w none [] (.error e, w')
  /-- Its tag cannot name a file, or it has no file for this platform. -/
  | unchosen {w₀ release e w₁ w'} (began : w.Reported w₀)
    (fetched : fetch releasesUrl tag o w₀ = (.ok release, w₁)) (chosen : release.chosenAsset = .error e)
    (ended : w₁.Reported w') :
    Course directory releasesUrl tag o w none [] (.error e, w')
  | undownloaded {w₀ release w₁ asset w₂ e w₃ w'} (began : w.Reported w₀)
    (fetched : fetch releasesUrl tag o w₀ = (.ok release, w₁)) (chosen : release.chosenAsset = .ok asset)
    (announced : w₁.Reported w₂) (downloaded : download asset.url o w₂ = (.error e, w₃))
    (ended : w₃.Reported w') :
    Course directory releasesUrl tag o w none [] (.error e, w')
  /-- The archive is broken, or holds no binary. -/
  | unpacked {w₀ release w₁ asset w₂ payload e w₃ w'} (began : w.Reported w₀)
    (fetched : fetch releasesUrl tag o w₀ = (.ok release, w₁)) (chosen : release.chosenAsset = .ok asset)
    (announced : w₁.Reported w₂) (downloaded : download asset.url o w₂ = (.ok payload, w₃))
    (extracted : binaryOf asset payload = .error e) (ended : w₃.Reported w') :
    Course directory releasesUrl tag o w none [] (.error e, w')
  /-- There is no directory to install into. -/
  | uncreated {release binary w₁ fault w₂ w'} (obtained : Obtained releasesUrl tag o w release binary w₁)
    (created : Session.change (Disk.createDirectories directory) o w₁ = (.error fault, w₂))
    (ended : w₂.Reported w') :
    Course directory releasesUrl tag o w (some (release.tag, binary)) []
      (.error (.io directory fault), w')
  /-- The binary could not be put under the tag. -/
  | unkept {release binary w₁ w₂ e w₃ w'} (obtained : Obtained releasesUrl tag o w release binary w₁)
    (created : Session.change (Disk.createDirectories directory) o w₁ = (.ok (), w₂))
    (kept : writeProgram directory release.tag binary o w₂ = (.error e, w₃)) (ended : w₃.Reported w') :
    Course directory releasesUrl tag o w (some (release.tag, binary)) [] (.error e, w')
  /-- The binary could not be put under the default name. -/
  | unrefreshed {release binary w₁ w₂ w₃ e w₄ w'} (obtained : Obtained releasesUrl tag o w release binary w₁)
    (created : Session.change (Disk.createDirectories directory) o w₁ = (.ok (), w₂))
    (kept : writeProgram directory release.tag binary o w₂ = (.ok (), w₃))
    (refreshed : writeProgram directory defaultBinary binary o w₃ = (.error e, w₄)) (ended : w₄.Reported w') :
    Course directory releasesUrl tag o w (some (release.tag, binary)) [release.tag] (.error e, w')
  | installed {release binary w₁ w₂ w₃ w₄ w'} (obtained : Obtained releasesUrl tag o w release binary w₁)
    (created : Session.change (Disk.createDirectories directory) o w₁ = (.ok (), w₂))
    (kept : writeProgram directory release.tag binary o w₂ = (.ok (), w₃))
    (refreshed : writeProgram directory defaultBinary binary o w₃ = (.ok (), w₄)) (ended : w₄.Reported w') :
    Course directory releasesUrl tag o w (some (release.tag, binary)) [release.tag, defaultBinary]
      (.ok ⟨release.tag, Path.join directory release.tag, Path.join directory defaultBinary⟩, w')

theorem chosenAsset_eq_ok_iff {release : Release} {asset : Asset} : release.chosenAsset = .ok asset ↔
    Version.isSafe release.tag.toList = true ∧
      release.assets.find? (fun a => a.name = "resolc-x86_64-unknown-linux-musl" ||
        a.name = "resolc-x86_64-unknown-linux-musl.tar.gz") = some asset := by
  have hfile : release.asset? platformAsset = release.assets.find? (fun a =>
      a.name = "resolc-x86_64-unknown-linux-musl" || a.name = "resolc-x86_64-unknown-linux-musl.tar.gz") := rfl
  unfold chosenAsset
  rw [hfile]
  cases Version.isSafe release.tag.toList <;>
    cases release.assets.find? fun a => a.name = "resolc-x86_64-unknown-linux-musl" ||
      a.name = "resolc-x86_64-unknown-linux-musl.tar.gz" <;> simp

/-- What is found, downloaded and unpacked is obtained, and no file is changed by that. -/
theorem obtained_of_steps {release : Release} {asset : Asset} {payload binary : Bytes} {w₀ w₁ w₂ w₃ : World ν}
    (hbegan : w.Reported w₀) (hfetch : fetch releasesUrl tag o w₀ = (.ok release, w₁))
    (hchosen : release.chosenAsset = .ok asset) (hannounced : w₁.Reported w₂)
    (hdownload : download asset.url o w₂ = (.ok payload, w₃)) (hbinary : binaryOf asset payload = .ok binary) :
    Obtained releasesUrl tag o w release binary w₃ := by
  obtain ⟨description, hdescription, hdecoded⟩ := got_of_fetch hfetch
  obtain ⟨file, hfile, hpayload⟩ := got_of_download hdownload
  obtain ⟨hsafe, hasset⟩ := chosenAsset_eq_ok_iff.1 hchosen
  have hfetched := (passive_fetch releasesUrl tag (o := o) w₀).1
  have hdownloaded := (passive_download asset.url (o := o) w₂).1
  rw [hfetch] at hfetched
  rw [hdownload] at hdownloaded
  have hshared : w₃.shared = w.shared := by
    rw [hdownloaded, hannounced.shared, hfetched, hbegan.shared]
  obtain ⟨spans, log, rfl⟩ := hbegan
  obtain ⟨spans', log', rfl⟩ := hannounced
  exact ⟨hsafe, congrArg Cache.Shared.disk hshared, _, description, asset, file, payload, hdescription, hdecoded,
    hasset, hfile, hpayload, binaryOf_eq_ok_iff.1 hbinary⟩

/-- Puts the binary of a release in place, under its tag and under the default name. -/
def deliver (directory tag : String) (binary : Bytes) : Session ν SetupError Installed := do
  (Session.change (Disk.createDirectories directory)).mapError (.io directory)
  writeProgram directory tag binary
  writeProgram directory defaultBinary binary
  let path := Path.join directory tag
  Session.log .info .setup "resolc installed" [("tag", .shown tag), ("path", .shown path)]
  return ⟨tag, path, Path.join directory defaultBinary⟩

/-- The event that tells of a download. -/
def downloadEvent (release : Release) (asset : Asset) : Log.Event :=
  ⟨.info, Log.Part.setup.target, .shown "Downloading resolc",
    [("tag", .shown release.tag), ("asset", .shown asset.name)]⟩

/-- An installation that comes by a binary goes on to put it in place. -/
theorem installInto_of_steps {release : Release} {asset : Asset} {payload binary : Bytes} {w₁ w₂ : World ν}
    (hfetch : fetch releasesUrl tag o w = (.ok release, w₁)) (hchosen : release.chosenAsset = .ok asset)
    (hdownload : download asset.url o (w₁.logged [downloadEvent release asset]) = (.ok payload, w₂))
    (hbinary : binaryOf asset payload = .ok binary) :
    installInto directory releasesUrl tag o w = deliver directory release.tag binary o w₂ := by
  rw [installInto, Session.bind_of_ok hfetch, hchosen, Session.bind_of_ok rfl, Session.log_bind_apply]
  show (download asset.url >>= _) o (w₁.logged [downloadEvent release asset]) = _
  rw [Session.bind_of_ok hdownload, hbinary, Session.bind_of_ok rfl]
  rfl

/-- How an installation goes on when it has the binary. -/
theorem course_of_obtained {release : Release} {binary : Bytes} {w₁ w' w'' : World ν}
    {result : Except SetupError Installed} (hobtained : Obtained releasesUrl tag o w release binary w₁)
    (h : deliver directory release.tag binary o w₁ = (result, w')) (hended : w'.Reported w'') :
    ∃ found replaced, Course directory releasesUrl tag o w found replaced (result, w'') := by
  unfold deliver at h
  rcases hcreate : Session.change (Disk.createDirectories directory) o w₁ with ⟨fault | _, w₂⟩
  · rw [Session.bind_of_error (Session.mapError_apply_eq_error_iff.2 ⟨fault, hcreate, rfl⟩)] at h
    cases h
    exact ⟨_, [], .uncreated hobtained hcreate hended⟩
  rw [Session.bind_of_ok (Session.mapError_apply_eq_ok_iff.2 hcreate)] at h
  rcases hkeep : writeProgram directory release.tag binary o w₂ with ⟨e | _, w₃⟩
  · rw [Session.bind_of_error hkeep] at h
    cases h
    exact ⟨_, [], .unkept hobtained hcreate hkeep hended⟩
  rw [Session.bind_of_ok hkeep] at h
  rcases hrefresh : writeProgram directory defaultBinary binary o w₃ with ⟨e | _, w₄⟩
  · rw [Session.bind_of_error hrefresh] at h
    cases h
    exact ⟨_, _, .unrefreshed hobtained hcreate hkeep hrefresh hended⟩
  rw [Session.bind_of_ok hrefresh, Session.log_bind_apply] at h
  cases h
  exact ⟨_, _, .installed hobtained hcreate hkeep hrefresh (.trans (.logged w₄ _) hended)⟩

/-- Every installation goes in one of these ways. -/
theorem course (directory releasesUrl : String) (tag : Option String) (o : Outside ν) {w w₀ : World ν}
    (hbegan : w.Reported w₀) {result : Except SetupError Installed} {w' : World ν}
    (h : installInto directory releasesUrl tag o w₀ = (result, w')) {w'' : World ν} (hended : w'.Reported w'') :
    ∃ found replaced, Course directory releasesUrl tag o w found replaced (result, w'') := by
  unfold installInto at h
  rcases hfetch : fetch releasesUrl tag o w₀ with ⟨e | release, w₁⟩
  · rw [Session.bind_of_error hfetch] at h
    cases h
    exact ⟨none, [], .unfetched hbegan hfetch hended⟩
  rw [Session.bind_of_ok hfetch] at h
  cases hchosen : release.chosenAsset with
  | error e =>
    rw [hchosen, Session.bind_of_error rfl] at h
    cases h
    exact ⟨none, [], .unchosen hbegan hfetch hchosen hended⟩
  | ok asset =>
    rw [hchosen, Session.bind_of_ok rfl, Session.log_bind_apply] at h
    have hannounced := World.Reported.logged w₁ [⟨.info, Log.Part.setup.target, .shown "Downloading resolc",
      [("tag", .shown release.tag), ("asset", .shown asset.name)]⟩]
    revert h hannounced
    generalize w₁.logged _ = w₂
    intro h hannounced
    rcases hdownload : download asset.url o w₂ with ⟨e | payload, w₃⟩
    · rw [Session.bind_of_error hdownload] at h
      cases h
      exact ⟨none, [], .undownloaded hbegan hfetch hchosen hannounced hdownload hended⟩
    rw [Session.bind_of_ok hdownload] at h
    cases hbinary : binaryOf asset payload with
    | error e =>
      rw [hbinary, Session.bind_of_error rfl] at h
      cases h
      exact ⟨none, [], .unpacked hbegan hfetch hchosen hannounced hdownload hbinary hended⟩
    | ok binary =>
      rw [hbinary, Session.bind_of_ok rfl] at h
      exact course_of_obtained (obtained_of_steps hbegan hfetch hchosen hannounced hdownload hbinary) h hended

/-! ## What it leaves -/

/-- What an installation of a binary under a tag and under the default name leaves of a disk, when it has
replaced some of the two and ends with a result. -/
structure Consistent (directory tag : String) (binary : Bytes) (replaced : List String) (d : Disk)
    (result : Except SetupError Installed) (d' : Disk) : Prop where
  safe : Version.isSafe tag.toList = true
  /-- The default name is replaced after the tag. -/
  order : replaced <+: [tag, defaultBinary]
  ok_iff : (∃ installed, result = .ok installed) ↔ replaced = [tag, defaultBinary]
  /-- A name that was replaced leads to the whole binary, which may be run. -/
  whole : ∀ name ∈ replaced, ∃ place,
    d'.find (Path.join directory name) = .ok (place, .file Disk.programMode binary)
  /-- Any other name leads to what was there. -/
  held : ∀ version, Version.isSafe version.toList = true → version ∉ replaced → ∀ place,
    d'.locate (Path.join directory version) = .ok place → d'.contentAt place = d.contentAt place
  /-- A version that could be read still is, unless it was replaced. -/
  read : ∀ version, Version.isSafe version.toList = true → version ∉ replaced → ∀ content,
    d.read (Path.join directory version) = .ok content → d'.read (Path.join directory version) = .ok content
  /-- A file that was changed, wherever it is, is that of one of the two names, or a temporary one. -/
  changed : ∀ place, d'.contentAt place ≠ d.contentAt place → ∃ name ∈ [tag, defaultBinary],
    d'.locate (Path.join directory name) = .ok place ∨
      d'.locate (Path.join directory (Path.partialName name)) = .ok place

theorem isSafe_defaultBinary : Version.isSafe defaultBinary.toList = true := by decide

/-- The programs that were put in place tell what is left. -/
theorem Consistent.of_writes {tag : String} {binary : Bytes} {replaced : List String} {d d' : Disk}
    {result : Except SetupError Installed} (hsafe : Version.isSafe tag.toList = true)
    (hwrites : Disk.Writes directory [tag, defaultBinary] binary replaced d d')
    (horder : replaced <+: [tag, defaultBinary])
    (hok : (∃ installed, result = .ok installed) ↔ replaced = [tag, defaultBinary]) :
    Consistent directory tag binary replaced d result d' := by
  have hnames : ∀ name ∈ [tag, defaultBinary], Version.isSafe name.toList = true := by
    simp [hsafe, isSafe_defaultBinary]
  exact {
    safe := hsafe
    order := horder
    ok_iff := hok
    whole := fun name hmem => (hwrites.find_of_mem hnames hmem).2
    held := fun version hversion hmem place => hwrites.contentAt_of_not_mem hnames hversion hmem
    read := fun version hversion hmem content => hwrites.read_of_not_mem hnames hversion hmem
    changed := fun place => hwrites.exists_of_changed }

/-- An installation that has the binary leaves the disk consistent. -/
theorem Course.consistent {name : String} {binary : Bytes} {replaced : List String}
    {result : Except SetupError Installed × World ν}
    (h : Course directory releasesUrl tag o w (some (name, binary)) replaced result) :
    Consistent directory name binary replaced w.disk result.1 result.2.disk := by
  -- the directory, and the tag if it is replaced
  have hcreated : ∀ {release : Release} {w₁ w₂ : World ν}, Obtained releasesUrl tag o w release binary w₁ →
      Session.change (Disk.createDirectories directory) o w₁ = (.ok (), w₂) →
      Disk.Writes directory [release.tag, defaultBinary] binary [] w.disk w₂.disk := by
    intro release w₁ w₂ hobtained hcreate
    exact .grow (Disk.grows_createDirectories (hobtained.disk ▸ Session.change_of_ok hcreate))
  have hkept : ∀ {release : Release} {w₁ w₂ w₃ : World ν}, Obtained releasesUrl tag o w release binary w₁ →
      Session.change (Disk.createDirectories directory) o w₁ = (.ok (), w₂) →
      writeProgram directory release.tag binary o w₂ = (.ok (), w₃) →
      Disk.Writes directory [release.tag, defaultBinary] binary [release.tag] w.disk w₃.disk := by
    intro release w₁ w₂ w₃ hobtained hcreate hkeep
    exact .put List.mem_cons_self (hcreated hobtained hcreate)
      (puts_of_writeProgram (Version.isName_partialName hobtained.safe) hkeep)
  have hmem : ∀ tag, defaultBinary ∈ [tag, defaultBinary] := by simp
  cases h with
  | uncreated obtained created ended =>
    have hdisk := ended.disk.trans ((Session.change_of_error created).trans obtained.disk)
    exact .of_writes obtained.safe (.grow (hdisk ▸ .refl _)) List.nil_prefix (by simp)
  | unkept obtained created kept ended =>
    have hwrites := (hcreated obtained created).spoil List.mem_cons_self (spoils_of_writeProgram kept)
    exact .of_writes obtained.safe (ended.disk ▸ hwrites) List.nil_prefix (by simp)
  | unrefreshed obtained created kept refreshed ended =>
    have hwrites := (hkept obtained created kept).spoil (hmem _) (spoils_of_writeProgram refreshed)
    exact .of_writes obtained.safe (ended.disk ▸ hwrites) ⟨[defaultBinary], rfl⟩ (by simp)
  | installed obtained created kept refreshed ended =>
    have hwrites := (hkept obtained created kept).put (hmem _)
      (puts_of_writeProgram (Version.isName_partialName isSafe_defaultBinary) refreshed)
    exact .of_writes obtained.safe (ended.disk ▸ hwrites) (List.prefix_refl _) (by simp)

/-- An installation that does not come by a binary fails and leaves the disk. -/
theorem Course.disk_of_none {replaced : List String} {result : Except SetupError Installed × World ν}
    (h : Course directory releasesUrl tag o w none replaced result) :
    (∃ e, result.1 = .error e) ∧ result.2.disk = w.disk := by
  have hfetched : ∀ {w₀ w₁ : World ν} {fetched}, w.Reported w₀ →
      fetch releasesUrl tag o w₀ = (fetched, w₁) → w₁.disk = w.disk := by
    intro w₀ w₁ fetched hbegan hfetch
    have hpassive := (passive_fetch releasesUrl tag (o := o) w₀).1
    rw [hfetch, hbegan.shared] at hpassive
    exact congrArg Cache.Shared.disk hpassive
  have hdownloaded : ∀ {url : String} {w₁ w₂ w₃ : World ν} {downloaded}, w₁.disk = w.disk →
      w₁.Reported w₂ → download url o w₂ = (downloaded, w₃) → w₃.disk = w.disk := by
    intro url w₁ w₂ w₃ downloaded hdisk hannounced hdownload
    have hpassive := (passive_download url (o := o) w₂).1
    rw [hdownload, hannounced.shared] at hpassive
    exact (congrArg Cache.Shared.disk hpassive).trans hdisk
  cases h with
  | unfetched began fetched ended => exact ⟨⟨_, rfl⟩, ended.disk.trans (hfetched began fetched)⟩
  | unchosen began fetched _ ended => exact ⟨⟨_, rfl⟩, ended.disk.trans (hfetched began fetched)⟩
  | undownloaded began fetched _ announced downloaded ended =>
    exact ⟨⟨_, rfl⟩, ended.disk.trans (hdownloaded (hfetched began fetched) announced downloaded)⟩
  | unpacked began fetched _ announced downloaded _ ended =>
    exact ⟨⟨_, rfl⟩, ended.disk.trans (hdownloaded (hfetched began fetched) announced downloaded)⟩

/-- What an installation has is what it obtained. -/
theorem Course.obtained {name : String} {binary : Bytes} {replaced : List String}
    {result : Except SetupError Installed × World ν}
    (h : Course directory releasesUrl tag o w (some (name, binary)) replaced result) :
    ∃ release w', release.tag = name ∧ Obtained releasesUrl tag o w release binary w' := by
  cases h with
  | uncreated obtained | unkept obtained | unrefreshed obtained | installed obtained =>
    exact ⟨_, _, rfl, obtained⟩

/-- An installation that ends well tells the tag of what it found. -/
theorem Course.found_of_ok {found : Option (String × Bytes)} {replaced : List String} {places : Installed}
    {w' : World ν} (h : Course directory releasesUrl tag o w found replaced (.ok places, w')) :
    ∃ binary, found = some (places.tag, binary) := by
  generalize hresult : ((Except.ok places, w') : Except SetupError Installed × World ν) = result at h
  cases h <;> cases hresult
  exact ⟨_, rfl⟩

/-- Whatever the release, its files and the disk are, and whatever fails: an installation goes in one of the
known ways. It fails and leaves the disk if it does not come by a binary. Else the binary is that of the
release, and its names and all other files are as they have to be. -/
theorem install_consistent (options : CommandLine.SetupOptions) (o : Outside ν) (w : World ν) :
    ∃ found replaced,
      Course options.cacheDirectory options.releasesUrl options.tag o w found replaced (install options o w) ∧
      (found = none → (∃ e, (install options o w).1 = .error e) ∧ (install options o w).2.disk = w.disk) ∧
      ∀ tag binary, found = some (tag, binary) →
        (∃ release w', release.tag = tag ∧ Obtained options.releasesUrl options.tag o w release binary w') ∧
          Consistent options.cacheDirectory tag binary replaced w.disk
            (install options o w).1 (install options o w).2.disk := by
  have hcourse : ∃ found replaced, Course options.cacheDirectory options.releasesUrl options.tag o w
      found replaced (install options o w) := by
    rw [install, Session.within_apply]
    generalize _ :: w.spans = spans
    rcases hinto : installInto options.cacheDirectory options.releasesUrl options.tag o { w with spans } with
      ⟨result, w'⟩
    exact course _ _ _ o (.spanned w spans) hinto (.spanned w' _)
  obtain ⟨found, replaced, hcourse⟩ := hcourse
  refine ⟨found, replaced, hcourse, ?_, ?_⟩
  · rintro rfl
    exact hcourse.disk_of_none
  · rintro tag binary rfl
    exact ⟨hcourse.obtained, hcourse.consistent⟩

/-! ## A release whose file is an archive -/

open Archive

/-- The header of a file with the name of the toolchain, which announces nine bytes. -/
private def header : Bytes :=
  Text.encode "resolc" ++ List.replicate 118 0 ++ Text.encode "00000000011" ++ List.replicate 13 0 ++
    Text.encode "002712" ++ [0, 0x20, 0x30] ++ List.replicate 355 0

/-- The file of the archives, of which one has all and the other the first two bytes. -/
private def program : Bytes := Text.encode "#!/bin/sh"

private theorem length_program : program.length = 9 := by
  rw [program, Text.encode_eq]
  decide

private theorem length_header : header.length = blockSize := by
  simp only [header, List.length_append, List.length_replicate, Text.encode_eq]
  decide

private theorem ofBlock_header : (Header.ofBlock header).toOption.map (fun h => (h.format, h.kind, h.size, h.path))
      = some (.old, 0x30, 9, Text.encode "resolc") ∧ lastName? (Text.encode "resolc") = some "resolc" := by
  decide +kernel

private theorem finds_header (rest : Bytes) : Finds "resolc" (header ++ rest) 9 rest := by
  obtain ⟨hread, hname⟩ := ofBlock_header
  have hmem : 0x20 ∈ header := by simp only [header, List.mem_append, List.mem_cons, true_or, or_true]
  cases hheader : Header.ofBlock header with
  | error flaw =>
    rw [hheader] at hread
    cases hread
  | ok h =>
    rw [hheader] at hread
    obtain ⟨format, kind, size, path⟩ := h
    obtain ⟨rfl, rfl, rfl, rfl⟩ : format = .old ∧ kind = 0x30 ∧ size = 9 ∧ path = Text.encode "resolc" := by
      simpa using hread
    have hheads : Heads .none (header ++ rest) (Text.encode "resolc") true 9 rest :=
      .header length_header ⟨0x20, hmem, by decide⟩ hheader ⟨rfl, rfl, rfl, by decide⟩
    exact .here hheads ⟨"resolc", hname, List.prefix_refl _⟩

/-- An archive with the whole file. -/
private def wholeArchive : Bytes := stored (header ++ program) [0xF9, 0x63, 0xAC, 0x73]

/-- An archive that ends inside the file. -/
private def cutArchive : Bytes := stored (header ++ program.take 2) [0xB5, 0x57, 0x73, 0xFD]

private def archiveName : String := "resolc-x86_64-unknown-linux-musl.tar.gz"

private theorem checksums : checksumFrom (header ++ program) 0xFFFFFFFF = (0x8C539C06 : UInt32).toNat ∧
    checksumFrom (header ++ program.take 2) 0xFFFFFFFF = (0x028CA84A : UInt32).toNat := by
  decide +kernel

private theorem length_header_append (n : Nat) : (header ++ program.take n).length < 65536 := by
  rw [List.length_append, List.length_take, length_header, length_program, blockSize]
  omega

private theorem gunzip_wholeArchive : gunzip wholeArchive = ⟨header ++ program, none⟩ := by
  refine gunzip_stored (List.take_of_length_le length_program.le ▸ length_header_append 9) rfl ?_
  rw [checksum_of_checksumFrom checksums.1]
  decide

private theorem gunzip_cutArchive : gunzip cutArchive = ⟨header ++ program.take 2, none⟩ := by
  refine gunzip_stored (length_header_append 2) rfl ?_
  rw [checksum_of_checksumFrom checksums.2]
  decide

private theorem isSuffix_archiveName : ".tar.gz".toList <:+ archiveName.toList := by decide

private theorem unpacks_wholeArchive : Unpacks archiveName wholeArchive program := by
  have hfinds : Finds "resolc" (gunzip wholeArchive).bytes 9 program := by
    rw [gunzip_wholeArchive]
    exact finds_header _
  exact List.take_of_length_le length_program.le ▸ .whole isSuffix_archiveName hfinds length_program.ge

/-- Of the nine bytes that are announced only two are there. -/
private theorem unpacks_cutArchive : Finds "resolc" (gunzip cutArchive).bytes 9 (program.take 2) ∧
    (program.take 2).length = 2 ∧ Unpacks archiveName cutArchive (program.take 2) := by
  have hfinds : Finds "resolc" (gunzip cutArchive).bytes 9 (program.take 2) := by
    rw [gunzip_cutArchive]
    exact finds_header _
  have hlength : (program.take 2).length = 2 := by
    rw [List.length_take, length_program]
    rfl
  exact ⟨hfinds, hlength, .cut isSuffix_archiveName hfinds (by rw [hlength]; decide) (by rw [gunzip_cutArchive])⟩

private def releaseText : String :=
  "\x7b\"tag_name\":\"v0.1.0\",\"assets\":[\x7b\"name\":\"resolc-x86_64-unknown-linux-musl.tar.gz\"," ++
    "\"browser_download_url\":\"http://host/file\"\x7d]\x7d"

/-- A publisher of one release, whose file for this platform is an archive. -/
private def publishing (archive : Bytes) : Outside Unit where
  exchange request x :=
    (some ⟨200, none, if request.headers = headers "*/*" then archive else Text.encode releaseText, true⟩, x)
  run _ x := (.notStarted .notFound, x)
  draw _ x := (0, x)
  listen _ x := (.error .addressNotAvailable, x)

private def archiveAsset : Asset := ⟨archiveName, "http://host/file"⟩

private def publishedRelease : Release := ⟨"v0.1.0", [archiveAsset]⟩

private theorem get_publishing {address accepted : String}
    (htarget : (Http.target address).toOption.isSome = true) (archive : Bytes) (w : World Unit) :
    (Http.get address (headers accepted) : Session Unit _ _) (publishing archive) w
      = (.ok ⟨200, none, if headers accepted = headers "*/*" then archive else Text.encode releaseText, true⟩, w) := by
  cases hurl : Http.target address with
  | error e =>
    rw [hurl] at htarget
    cases htarget
  | ok url =>
    rw [Http.get, Http.send, hurl]
    exact Http.follow_of_final rfl rfl

/-- The release is asked for under the address of the latest one. -/
private def asked (w : World Unit) : World Unit :=
  w.logged [⟨.debug, Log.Part.setup.target, .shown "Fetching resolc release",
    [("url", .shown ("http://host" ++ "/latest"))]⟩]

/-- The two addresses can be asked for, and the release is read from what is sent of it. -/
private theorem published : (Http.target ("http://host" ++ "/latest")).toOption.isSome = true ∧
    (Http.target archiveAsset.url).toOption.isSome = true ∧
    (Http.Reply.json decoder ⟨200, none, Text.encode releaseText, true⟩).toOption = some publishedRelease := by
  decide +kernel

private theorem fetch_publishing (archive : Bytes) (w : World Unit) :
    fetch "http://host" none (publishing archive) w = (.ok publishedRelease, asked w) := by
  have hget : (Http.get ("http://host" ++ "/latest") (headers "application/vnd.github+json") : Session Unit _ _)
      (publishing archive) (asked w) = (.ok ⟨200, none, Text.encode releaseText, true⟩, asked w) := by
    have hother : headers "application/vnd.github+json" ≠ headers "*/*" := by decide
    rw [get_publishing published.1, if_neg hother]
  have hjson : Http.Reply.json decoder ⟨200, none, Text.encode releaseText, true⟩
      = .ok publishedRelease :=
    toOption_eq_some_iff.1 published.2.2
  unfold fetch lookup
  dsimp only
  rw [Session.log_bind_apply]
  refine (Session.bind_of_ok (Session.mapError_apply_eq_ok_iff.2 hget) _).trans ?_
  rw [hjson]
  rfl

private theorem download_publishing (archive : Bytes) (w : World Unit) :
    download archiveAsset.url (publishing archive) w = (.ok archive, w) := by
  have hget := @get_publishing archiveAsset.url "*/*" published.2.1 archive w
  rw [if_pos rfl] at hget
  rw [download, Session.bind_of_ok (Session.mapError_apply_eq_ok_iff.2 hget)]
  rfl

/-- The world in which the file of the release has been downloaded to a fresh directory. -/
private def obtained : World Unit :=
  (asked { World.blank with
    spans := Log.Span.start "install" .info Log.Part.setup.target
      [("tag", .shown (shownTag none)), ("cache_dir", .shown "/c")] :: World.blank.spans }).logged
    [downloadEvent publishedRelease archiveAsset]

/-- What an installation of a binary into a fresh directory ends with, and what its two names lead to. -/
private def delivered (archive binary : Bytes) : Option Installed × Option Bytes × Option Bytes :=
  let (result, w) := deliver "/c" "v0.1.0" binary (publishing archive) obtained
  (result.toOption, (w.disk.read "/c/v0.1.0").toOption, (w.disk.read "/c/resolc").toOption)

private theorem delivered_archives :
    delivered wholeArchive program
        = (some ⟨"v0.1.0", "/c/v0.1.0", "/c/resolc"⟩, some program, some program) ∧
      delivered cutArchive (program.take 2)
        = (some ⟨"v0.1.0", "/c/v0.1.0", "/c/resolc"⟩, some (program.take 2), some (program.take 2)) := by
  decide +kernel

/-- What is unpacked from the archive is put in place. -/
private theorem install_publishing {archive binary : Bytes} (h : Unpacks archiveName archive binary)
    (hdelivered : delivered archive binary
      = (some ⟨"v0.1.0", "/c/v0.1.0", "/c/resolc"⟩, some binary, some binary)) :
    ∃ w', install ⟨none, "/c", "http://host", 1⟩ (publishing archive) .blank
        = (.ok ⟨"v0.1.0", "/c/v0.1.0", "/c/resolc"⟩, w') ∧
      w'.disk.read "/c/v0.1.0" = .ok binary ∧ w'.disk.read "/c/resolc" = .ok binary := by
  have hchosen : publishedRelease.chosenAsset = .ok archiveAsset := by
    rw [chosenAsset_eq_ok_iff]
    decide
  have hbinary : binaryOf archiveAsset archive = .ok binary := binaryOf_eq_ok_iff.2 h
  unfold delivered at hdelivered
  rcases hdeliver : deliver "/c" "v0.1.0" binary (publishing archive) obtained with ⟨result, w⟩
  rw [hdeliver] at hdelivered
  obtain ⟨hresult, hnames⟩ := Prod.mk.inj hdelivered
  obtain ⟨htag, hdefault⟩ := Prod.mk.inj hnames
  obtain rfl := toOption_eq_some_iff.1 hresult
  have hinto := (installInto_of_steps (fetch_publishing archive _) hchosen (download_publishing archive _)
    hbinary).trans hdeliver
  rw [install, Session.within_apply, hinto]
  exact ⟨_, rfl, toOption_eq_some_iff.1 htag, toOption_eq_some_iff.1 hdefault⟩

/-- The program of a whole archive is put under both names. -/
theorem install_consistent_of_archive :
    Unpacks archiveName wholeArchive program ∧
    ∃ w', install ⟨none, "/c", "http://host", 1⟩ (publishing wholeArchive) .blank
        = (.ok ⟨"v0.1.0", "/c/v0.1.0", "/c/resolc"⟩, w') ∧
      Consistent "/c" "v0.1.0" program ["v0.1.0", "resolc"] World.blank.disk
        (.ok ⟨"v0.1.0", "/c/v0.1.0", "/c/resolc"⟩) w'.disk := by
  obtain ⟨w', hinstall, htag, -⟩ := install_publishing unpacks_wholeArchive delivered_archives.1
  refine ⟨unpacks_wholeArchive, w', hinstall, ?_⟩
  obtain ⟨found, replaced, hcourse, -, hsome⟩ :=
    install_consistent ⟨none, "/c", "http://host", 1⟩ (publishing wholeArchive) .blank
  rw [hinstall] at hcourse hsome
  obtain ⟨binary, rfl⟩ := hcourse.found_of_ok
  obtain ⟨-, hconsistent⟩ := hsome _ _ rfl
  obtain rfl : replaced = ["v0.1.0", "resolc"] := hconsistent.ok_iff.1 ⟨_, rfl⟩
  -- the binary that was obtained is what is read under the tag
  obtain ⟨place, hfind⟩ := hconsistent.whole "v0.1.0" List.mem_cons_self
  have hpath : Path.join "/c" "v0.1.0" = "/c/v0.1.0" := by decide
  obtain rfl : binary = program := by
    rw [Disk.read, ← hpath, hfind] at htag
    exact Except.ok.inj htag
  exact hconsistent

/-- An installation ends well although the archive ends seven bytes before the program does, and puts what
there is of it under both names. -/
theorem installs_cut_program :
    Finds "resolc" (gunzip cutArchive).bytes 9 (program.take 2) ∧ (program.take 2).length = 2 ∧
    ∃ w', install ⟨none, "/c", "http://host", 1⟩ (publishing cutArchive) .blank
        = (.ok ⟨"v0.1.0", "/c/v0.1.0", "/c/resolc"⟩, w') ∧
      w'.disk.read "/c/v0.1.0" = .ok (program.take 2) ∧ w'.disk.read "/c/resolc" = .ok (program.take 2) :=
  ⟨unpacks_cutArchive.1, unpacks_cutArchive.2.1, install_publishing unpacks_cutArchive.2.2 delivered_archives.2⟩

end Provenance.Release
