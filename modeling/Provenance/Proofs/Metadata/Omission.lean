import Provenance.Proofs.Json.Bare
import Provenance.Proofs.Json.Insertion
import Provenance.Proofs.Metadata.CompilerInput

/-!
# Metadata without settings of the optimizer

A document that leaves the optimizer out gets settings that no field of the optimizer has as its default: it asks for 0
runs, where one with empty settings of the optimizer asks for 200. Nothing else is different in what a compiler is given
(`Metadata.standardJson_of_addsOptimizer`).
-/

namespace Provenance

open Json Decoder

/-! ## What documents say -/

theorem SourceFile.ignoresPlaces : SourceFile.record.decoder.IgnoresPlaces := by
  refine Record.ignoresPlaces orderless.optional ?_
  simp only [record, List.forall_mem_cons]
  exact ⟨IgnoresPlaces.string.option.map _, IgnoresPlaces.string.map _, by simp⟩

theorem Optimizer.ignoresPlaces : Optimizer.record.decoder.IgnoresPlaces := by
  refine Record.ignoresPlaces orderless.optional ?_
  simp only [record, List.forall_mem_cons]
  exact ⟨IgnoresPlaces.bool.map _, IgnoresPlaces.uint64.map _, by simp⟩

theorem Settings.ignoresPlaces : Settings.record.decoder.IgnoresPlaces := by
  refine Record.ignoresPlaces orderless.optional ?_
  simp only [record, List.forall_mem_cons]
  exact ⟨IgnoresPlaces.string.list.map _, Optimizer.ignoresPlaces.map _, IgnoresPlaces.string.option.map _,
    IgnoresPlaces.value.dictionary.map _, IgnoresPlaces.value.option.map _, IgnoresPlaces.string.dictionary.map _,
    IgnoresPlaces.value.option.map _, by simp⟩

theorem Metadata.ignoresPlaces : Metadata.record.decoder.IgnoresPlaces := by
  refine Record.ignoresPlaces orderless.optional ?_
  simp only [record, List.forall_mem_cons]
  exact ⟨IgnoresPlaces.string.map _, SourceFile.ignoresPlaces.dictionary.map _, Settings.ignoresPlaces.map _,
    IgnoresPlaces.string.option.map _, by simp⟩

/-! ## Adding the optimizer -/

/-- Settings that hold empty settings of the optimizer and nothing else. -/
def optimizerOnly : Node := bareObject [bareMember "optimizer" (bareObject [])]

/-- A metadata document has empty settings of the optimizer where another one, the same in all else, has none: as a
further member of its settings, or in settings that the other one lacks as well. A list gives the settings in the third
place. -/
inductive Metadata.GainsOptimizer : Node → Node → Prop
  | member {start before after ending key s s'} (named : key.text = .ok "settings")
    (gains : Gains "optimizer" (bareObject []) s s') :
    GainsOptimizer (.object start (before ++ (key, s) :: after) ending)
      (.object start (before ++ (key, s') :: after) ending)
  | newMember {n n'} (gains : Gains "settings" optimizerOnly n n') : GainsOptimizer n n'
  | item {start language sources s s' rest ending} (gains : Gains "optimizer" (bareObject []) s s') :
    GainsOptimizer (.array start (language :: sources :: s :: rest) ending)
      (.array start (language :: sources :: s' :: rest) ending)
  | newItem {start language sources ending} :
    GainsOptimizer (.array start [language, sources] ending)
      (.array start [language, sources, optimizerOnly] ending)

/-- A text writes a metadata document that has empty settings of the optimizer where that of another text has none. How
the texts are laid out does not matter. -/
structure Metadata.AddsOptimizer (text text' : String) : Prop where
  ended : HasNothingAfter text'
  gains : GainsOptimizer (Node.ofText text).bare (Node.ofText text').bare

/-- A metadata document with other settings of the optimizer. -/
def Metadata.withOptimizer (m : Metadata) (o : Optimizer) : Metadata :=
  { m with settings := { m.settings with optimizer := o } }

section
variable {depth : Nat} {n n' : Node}

theorem Settings.read_of_gains {s : Settings} (gains : Gains "optimizer" (bareObject []) n n')
    (hdepth : depth + 1 < maxNesting) (hread : record.decoder depth n = .ok s) :
    s.optimizer = .absent ∧ record.decoder depth n' = .ok { s with optimizer := Optimizer.record.blank } :=
  ⟨gains.part_eq_blank shows.2.1 orderless.optional hread,
    gains.decoder orderless shows.2.1 rfl
      (decoder_bareObject_nil Optimizer.orderless.optional hdepth) hread⟩

theorem Settings.read_optimizerOnly (hdepth : depth + 1 < maxNesting) :
    record.decoder depth optimizerOnly = .ok { Settings.absent with optimizer := Optimizer.record.blank } := by
  have hgains : Gains "optimizer" (bareObject []) (bareObject []) optimizerOnly :=
    @Gains.intro "optimizer" (bareObject []) [] [] [] (.closed []) (by simp [keyTexts])
  exact (read_of_gains hgains hdepth (decoder_bareObject_nil orderless.optional (by omega))).2

/-- The fields that are left when some items of a list were read may be left out. -/
theorem Metadata.optional_drop (items : Nat) : ∀ f ∈ record.fields.drop items, f.required = false :=
  fun f hf => orderless.optional f (List.mem_of_mem_drop hf)

/-- The settings of a list may be exchanged. -/
theorem Metadata.read_items {start : Rest} {language sources : Node} {rest : List Node} {ending : ListEnd}
    {m : Metadata} (hread : record.decoder depth (.array start (language :: sources :: n :: rest) ending) = .ok m) :
    Settings.record.decoder (depth + 1) n = .ok m.settings ∧
      ∀ {n' s}, Settings.record.decoder (depth + 1) n' = .ok s →
        record.decoder depth (.array start (language :: sources :: n' :: rest) ending)
          = .ok { m with settings := s } := by
  obtain ⟨hdepth, hread⟩ := (Record.decoder_array_eq_ok_iff rfl).1 hread
  obtain ⟨setLanguage, hlanguage, hread⟩ := Record.elements_cons_eq_ok_iff.1 hread
  obtain ⟨setSources, hsources, hread⟩ := Record.elements_cons_eq_ok_iff.1 hread
  obtain ⟨_, hsettings, hread⟩ := Record.elements_cons_eq_ok_iff.1 hread
  obtain ⟨s, hs, rfl⟩ := map_eq_ok_iff.1 hsettings
  -- the version of the toolchain, which may follow, has nothing to do with the settings
  have hexchanged : ∀ t : Settings, record.elements (depth + 1) ending 3
      { setSources (setLanguage record.blank) with settings := t } (record.fields.drop 3) rest
        = .ok { m with settings := t } := by
    intro t
    refine Record.elements_changed (fun m => { m with settings := t }) (optional_drop 3) ?_ hread
    intro f hf depth' n' store hstore x
    obtain rfl := List.mem_singleton.1 hf
    obtain ⟨version, -, rfl⟩ := map_eq_ok_iff.1 hstore
    rfl
  have hsame : m = { m with settings := s } := Except.ok.inj (hread.symm.trans (hexchanged s))
  refine ⟨hsame ▸ hs, fun {n' t} ht => (Record.decoder_array_eq_ok_iff rfl).2 ⟨hdepth, ?_⟩⟩
  exact Record.elements_cons_eq_ok_iff.2 ⟨setLanguage, hlanguage, Record.elements_cons_eq_ok_iff.2
    ⟨setSources, hsources, Record.elements_cons_eq_ok_iff.2 ⟨_, map_eq_ok_iff.2 ⟨t, ht, rfl⟩, hexchanged t⟩⟩⟩

/-- Settings may follow at the end of a list that has none. -/
theorem Metadata.read_two_items {start : Rest} {language sources : Node} {ending : ListEnd} {m : Metadata}
    (hread : record.decoder depth (.array start [language, sources] ending) = .ok m) :
    m.settings = .absent ∧ ∀ {n' s}, Settings.record.decoder (depth + 1) n' = .ok s →
      record.decoder depth (.array start [language, sources, n'] ending) = .ok { m with settings := s } := by
  obtain ⟨hdepth, hread⟩ := (Record.decoder_array_eq_ok_iff rfl).1 hread
  obtain ⟨setLanguage, hlanguage, hread⟩ := Record.elements_cons_eq_ok_iff.1 hread
  obtain ⟨setSources, hsources, hread⟩ := Record.elements_cons_eq_ok_iff.1 hread
  obtain ⟨hend, rfl⟩ := (Record.elements_nil_eq_ok_iff (optional_drop 2)).1 hread
  have habsent : (setSources (setLanguage record.blank)).settings = .absent := by
    obtain ⟨_, -, rfl⟩ := map_eq_ok_iff.1 hlanguage
    obtain ⟨_, -, rfl⟩ := map_eq_ok_iff.1 hsources
    rfl
  refine ⟨habsent, fun {n' s} hs => (Record.decoder_array_eq_ok_iff rfl).2 ⟨hdepth, ?_⟩⟩
  exact Record.elements_cons_eq_ok_iff.2 ⟨setLanguage, hlanguage, Record.elements_cons_eq_ok_iff.2
    ⟨setSources, hsources, Record.elements_cons_eq_ok_iff.2 ⟨_, map_eq_ok_iff.2 ⟨s, hs, rfl⟩,
      (Record.elements_nil_eq_ok_iff (optional_drop 3)).2 ⟨hend, rfl⟩⟩⟩⟩

theorem Metadata.read_of_gainsOptimizer {m : Metadata} (gains : GainsOptimizer n n')
    (hread : record.decoder 0 n = .ok m) :
    m.settings.optimizer = .absent ∧ record.decoder 0 n' = .ok (m.withOptimizer Optimizer.record.blank) := by
  have hshallow : 1 + 1 < maxNesting := by decide
  cases gains with
  | member named gains =>
    obtain ⟨hfresh, s, x, hs, hx, rfl⟩ := (orderless.decoder_middle shows.2.2 rfl named).1 hread
    obtain ⟨habsent, hs'⟩ := Settings.read_of_gains gains hshallow hs
    exact ⟨habsent, (orderless.decoder_middle shows.2.2 rfl named).2 ⟨hfresh, _, x, hs', hx, rfl⟩⟩
  | newMember gains =>
    have hsettings : m.settings = .absent := gains.part_eq_blank shows.2.2 orderless.optional hread
    have hread' := gains.decoder orderless shows.2.2 rfl (Settings.read_optimizerOnly hshallow) hread
    rw [withOptimizer, hsettings]
    exact ⟨rfl, hread'⟩
  | item gains =>
    obtain ⟨hs, hexchanged⟩ := read_items hread
    obtain ⟨habsent, hs'⟩ := Settings.read_of_gains gains hshallow hs
    exact ⟨habsent, hexchanged hs'⟩
  | newItem =>
    obtain ⟨hsettings, hadded⟩ := read_two_items hread
    have hread' := hadded (Settings.read_optimizerOnly hshallow)
    rw [withOptimizer, hsettings]
    exact ⟨rfl, hread'⟩

/-- The settings of a metadata document, which are the third item of a list. -/
def Metadata.settingsOf? : Node → Option Node
  | .array _ items _ => items[2]?
  | n => n.under? "settings"

/-- Empty settings of the optimizer can be added to every document with sources that has none. -/
theorem Metadata.exists_gainsOptimizer {m : Metadata} (hread : record.decoder 0 n = .ok m) (hsources : m.sources ≠ [])
    (homitted : ∀ s ∈ settingsOf? n, s.under? "optimizer" = none) : ∃ n', GainsOptimizer n n' := by
  cases n with
  | object start members ending =>
    cases hsettings : lastMember? "settings" members with
    | none =>
      obtain ⟨n', gains⟩ := Gains.exists_of_under? (n := .object start members ending) rfl hsettings
      exact ⟨n', .newMember gains⟩
    | some s =>
      obtain ⟨⟨key, _⟩, hmem, hkey, rfl⟩ := exists_mem_of_lastMember? hsettings
      have hnamed : key.text = .ok "settings" := by
        cases htext : key.text with
        | ok k => simpa [htext] using hkey
        | error f => simp [htext, Except.toOption] at hkey
      obtain ⟨before, after, rfl⟩ := List.append_of_mem hmem
      obtain ⟨-, t, -, hs, -⟩ := (orderless.decoder_middle shows.2.2 rfl hnamed).1 hread
      obtain ⟨s', gains⟩ := Gains.exists_of_under? (members?_isSome_of_keep rfl hs) (homitted _ hsettings)
      exact ⟨_, .member hnamed gains⟩
  | array start items ending =>
    have hread' := ((Record.decoder_array_eq_ok_iff rfl).1 hread).2
    -- the sources are the second item, the settings the third
    rcases items with - | ⟨language, - | ⟨sources, - | ⟨s, rest⟩⟩⟩
    · obtain ⟨-, rfl⟩ := (Record.elements_nil_eq_ok_iff orderless.optional).1 hread'
      exact absurd rfl hsources
    · obtain ⟨_, hlanguage, hrest⟩ := Record.elements_cons_eq_ok_iff.1 hread'
      obtain ⟨-, rfl⟩ := (Record.elements_nil_eq_ok_iff (optional_drop 1)).1 hrest
      obtain ⟨_, -, rfl⟩ := map_eq_ok_iff.1 hlanguage
      exact absurd rfl hsources
    · exact ⟨_, .newItem⟩
    · obtain ⟨hs, -⟩ := read_items hread
      obtain ⟨s', gains⟩ := Gains.exists_of_under? (members?_isSome_of_keep rfl hs) (homitted s rfl)
      exact ⟨_, .item gains⟩
  | _ => cases hread

end

/-! ## Compiler inputs -/

/-- The text of an object around the text of one of its values. -/
theorem exists_membersText_middle {key : String} {before after : List (String × Value)} :
    ∃ pre post, ∀ v, Value.membersText (before ++ (key, v) :: after) = pre ++ v.text ++ post := by
  induction before with
  | nil =>
    cases after with
    | nil => exact ⟨stringText key ++ [':'], ['\x7d'], fun v => by simp [Value.membersText]⟩
    | cons next rest =>
      exact ⟨stringText key ++ [':'], ',' :: Value.membersText (next :: rest), fun v => by simp [Value.membersText]⟩
  | cons entry before ih =>
    obtain ⟨pre, post, h⟩ := ih
    refine ⟨stringText entry.1 ++ ':' :: (entry.2.text ++ ',' :: pre), post, fun v => ?_⟩
    have hmore : ∃ next rest, before ++ (key, v) :: after = next :: rest := by
      cases before <;> exact ⟨_, _, rfl⟩
    obtain ⟨next, rest, hmore⟩ := hmore
    rw [List.cons_append, hmore, Value.membersText, ← hmore, h]
    simp

theorem Settings.exists_sent (s : Settings) :
    ∃ before after, ∀ o, Settings.sent { s with optimizer := o } = before ++ ("optimizer", o.toValue) :: after := by
  have hsent : ∀ o, Settings.sent { s with optimizer := o } =
      (if s.remappings.isEmpty then [] else [("remappings", .array (s.remappings.map .string))]) ++
        ("optimizer", o.toValue) :: (Settings.sent { s with remappings := [], optimizer := o }).tail := fun o => by
    simp [Settings.sent]
  have htail : ∀ o, (Settings.sent { s with remappings := [], optimizer := o }).tail
      = (Settings.sent { s with remappings := [], optimizer := .absent }).tail := fun _ => rfl
  exact ⟨_, _, fun o => (hsent o).trans (by rw [htail])⟩

/-- Settings of the optimizer make no difference to the rest of a compiler input. -/
theorem Metadata.exists_standardJson_withOptimizer (m : Metadata) :
    ∃ pre post, ∀ o, (m.withOptimizer o).standardJson.toValue.text = pre ++ o.toValue.text ++ post := by
  obtain ⟨before, after, hsent⟩ := m.settings.exists_sent
  obtain ⟨pre, post, hsettings⟩ := @exists_membersText_middle "optimizer" before after
  obtain ⟨pre', post', hinput⟩ := @exists_membersText_middle "settings" [("language", .string m.language),
    ("sources", .object (m.sources.map fun entry => (entry.1, entry.2.toValue)))] []
  refine ⟨'\x7b' :: pre' ++ '\x7b' :: pre, post ++ post', fun o => ?_⟩
  have htext : (m.withOptimizer o).standardJson.toValue.text
      = '\x7b' :: (pre' ++ (m.withOptimizer o).standardJson.settings.toValue.text ++ post') :=
    congrArg ('\x7b' :: ·) (hinput _)
  rw [htext, toValue_settings, Value.text, withOptimizer, hsent, hsettings]
  simp

/-- The number of runs stands in one place of the text of a compiler input. -/
theorem Metadata.exists_text_runs (m : Metadata) :
    ∃ pre post, ∀ runs, (m.withOptimizer ⟨false, runs, []⟩).standardJson.toValue.text
      = pre ++ ("\"runs\":".toList ++ naturalText runs) ++ post := by
  obtain ⟨pre, post, htext⟩ := exists_standardJson_withOptimizer m
  have hoptimizer : ∀ runs, (⟨false, runs, []⟩ : Optimizer).toValue.text
      = "\x7b\"enabled\":false,".toList ++ ("\"runs\":".toList ++ naturalText runs) ++ ['\x7d'] := fun runs => rfl
  refine ⟨pre ++ "\x7b\"enabled\":false,".toList, '\x7d' :: post, fun runs => ?_⟩
  rw [htext, hoptimizer]
  simp only [List.append_assoc, List.cons_append, List.nil_append]

/-- What is read from a text is accepted if it has sources and each of them has content. -/
theorem Metadata.parse_of_read {text : String} {m : Metadata}
    (hread : record.decoder 0 (Node.ofText text) = .ok m) (hended : HasNothingAfter text)
    (hsources : m.sources ≠ []) (hcontents : ∀ file ∈ m.sources, file.2.content ≠ "") :
    Metadata.parse text = .ok m := by
  have hfind : m.sources.find? (fun entry => entry.2.content.isEmpty) = none :=
    List.find?_eq_none.2 fun file hfile => by simpa using hcontents file hfile
  rw [parse, decodeText_eq_ok_iff.2 ⟨hread, hended⟩]
  show m.check = .ok m
  rw [check, if_neg (by simpa using hsources), hfind]

/-- A document without settings of the optimizer is compiled with 0 runs, and with 200 if empty settings are added. All
else of the compiler's input is the same. -/
theorem Metadata.standardJson_of_addsOptimizer {text text' : String} {m : Metadata}
    (accepted : Metadata.parse text = .ok m) (added : AddsOptimizer text text') :
    m.settings.optimizer = ⟨false, 0, []⟩ ∧ Metadata.parse text' = .ok (m.withOptimizer ⟨false, 200, []⟩) ∧
      (m.withOptimizer ⟨false, 200, []⟩).standardJson.toValue.encode ≠ m.standardJson.toValue.encode ∧
      ∃ pre post,
        m.standardJson.toValue.text = pre ++ "\"runs\":0".toList ++ post ∧
        (m.withOptimizer ⟨false, 200, []⟩).standardJson.toValue.text = pre ++ "\"runs\":200".toList ++ post := by
  obtain ⟨hread, hsources, hcontents⟩ := read_of_parse accepted
  obtain ⟨habsent, hread'⟩ := read_of_gainsOptimizer added.gains ((ignoresPlaces 0 _ _).2 hread)
  have accepted' : Metadata.parse text' = .ok (m.withOptimizer Optimizer.record.blank) :=
    parse_of_read ((ignoresPlaces 0 _ _).1 hread') added.ended hsources hcontents
  have hsame : m.withOptimizer ⟨false, 0, []⟩ = m := by
    have hoptimizer : m.settings.optimizer = ⟨false, 0, []⟩ := habsent
    rw [withOptimizer, ← hoptimizer]
  obtain ⟨pre, post, htext⟩ := exists_text_runs m
  have hold : m.standardJson.toValue.text = pre ++ "\"runs\":0".toList ++ post := hsame ▸ htext 0
  have hnew : (m.withOptimizer ⟨false, 200, []⟩).standardJson.toValue.text
      = pre ++ "\"runs\":200".toList ++ post := htext 200
  refine ⟨habsent, accepted', fun hencode => ?_, pre, post, hold, hnew⟩
  -- the longer number makes the longer text
  have hlengths := congrArg List.length (String.ofList_injective hencode)
  have hshorter : "\"runs\":0".toList.length < "\"runs\":200".toList.length := by decide
  rw [hold, hnew] at hlengths
  simp only [List.length_append] at hlengths
  omega

/-- A document whose settings say something of other things only. -/
def silentText : String :=
  "\x7b\"sources\":\x7b\"a\":\x7b\"content\":\"A\"\x7d\x7d,\"settings\":\x7b\"viaIR\":true\x7d\x7d"

/-- The same document with empty settings of the optimizer, and a blank in them. -/
def spokenText : String :=
  "\x7b\"sources\":\x7b\"a\":\x7b\"content\":\"A\"\x7d\x7d,\"settings\":" ++
    "\x7b\"optimizer\":\x7b \x7d,\"viaIR\":true\x7d\x7d"

/-- The members of `silentText` before the settings. -/
def silentMembers : List (Key × Node) :=
  [bareMember "sources" (bareObject [bareMember "a" (bareObject [bareMember "content" (.string [] [] (.ok "A"))])])]

/-- The settings of `silentText`. -/
def silentSettings : Node := bareObject [bareMember "viaIR" (.bool [] [] true)]

/-- The settings of `spokenText`. -/
def spokenSettings : Node :=
  bareObject [bareMember "optimizer" (bareObject []), bareMember "viaIR" (.bool [] [] true)]

/-- In settings with another member the optimizer is missed as well. -/
theorem Metadata.standardJson_of_addsOptimizer_silent :
    ∃ m pre post, Metadata.parse silentText = .ok m ∧ AddsOptimizer silentText spokenText ∧
      Metadata.parse spokenText = .ok (m.withOptimizer ⟨false, 200, []⟩) ∧
      m.standardJson.toValue.text = pre ++ "\"runs\":0".toList ++ post ∧
      (m.withOptimizer ⟨false, 200, []⟩).standardJson.toValue.text = pre ++ "\"runs\":200".toList ++ post := by
  obtain ⟨m, accepted⟩ : ∃ m, Metadata.parse silentText = .ok m := isOk_iff_exists.1 (by decide +kernel)
  have hsilent : (Node.ofText silentText).bare = bareObject (silentMembers ++ [bareMember "settings" silentSettings]) :=
    Node.bare_eq_of_isLike (Node.ofText silentText)
      (bareObject (silentMembers ++ [bareMember "settings" silentSettings]))
      (by decide +kernel)
  have hspoken : (Node.ofText spokenText).bare = bareObject (silentMembers ++ [bareMember "settings" spokenSettings]) :=
    Node.bare_eq_of_isLike (Node.ofText spokenText)
      (bareObject (silentMembers ++ [bareMember "settings" spokenSettings]))
      (by decide +kernel)
  have hgains : Gains "optimizer" (bareObject []) silentSettings spokenSettings :=
    @Gains.intro _ _ [] [] [bareMember "viaIR" (.bool [] [] true)] _ (by decide)
  have added : AddsOptimizer silentText spokenText := {
    ended := by
      unfold HasNothingAfter
      decide +kernel
    gains := by
      rw [hsilent, hspoken]
      exact .member rfl hgains }
  obtain ⟨-, accepted', -, pre, post, hold, hnew⟩ := Metadata.standardJson_of_addsOptimizer accepted added
  exact ⟨_, pre, post, accepted, added, accepted', hold, hnew⟩

/-- A document without settings. -/
def omittedText : String := "\x7b\"sources\":\x7b\"a.sol\":\x7b\"content\":\"contract A \x7b\x7d\"\x7d\x7d\x7d"

/-- The same document with empty settings of the optimizer. -/
def addedText : String :=
  "\x7b\"sources\":\x7b\"a.sol\":\x7b\"content\":\"contract A \x7b\x7d\"\x7d\x7d,\"settings\":" ++
    "\x7b\"optimizer\":\x7b\x7d\x7d\x7d"

/-- The members of `omittedText`. -/
def omittedMembers : List (Key × Node) :=
  [bareMember "sources" (bareObject [bareMember "a.sol"
    (bareObject [bareMember "content" (.string [] [] (.ok "contract A \x7b\x7d"))])])]

/-- Empty settings of the optimizer are not the same as none. -/
theorem Metadata.standardJson_ne_of_omitted :
    AddsOptimizer omittedText addedText ∧ ∃ m m', Metadata.parse omittedText = .ok m ∧
      Metadata.parse addedText = .ok m' ∧ m.standardJson.toValue.encode ≠ m'.standardJson.toValue.encode := by
  have homitted : (Node.ofText omittedText).bare = bareObject (omittedMembers ++ []) := by
    rw [List.append_nil]
    exact Node.bare_eq_of_isLike (Node.ofText omittedText) (bareObject omittedMembers) (by decide +kernel)
  have hadded : (Node.ofText addedText).bare = bareObject (omittedMembers ++ [bareMember "settings" optimizerOnly]) :=
    Node.bare_eq_of_isLike (Node.ofText addedText)
      (bareObject (omittedMembers ++ [bareMember "settings" optimizerOnly]))
      (by decide +kernel)
  have gains : GainsOptimizer (Node.ofText omittedText).bare (Node.ofText addedText).bare := by
    rw [homitted, hadded]
    exact .newMember (.intro (by decide))
  have ended : HasNothingAfter addedText := by
    unfold HasNothingAfter
    decide +kernel
  obtain ⟨m, parsed⟩ : ∃ m, Metadata.parse omittedText = .ok m := isOk_iff_exists.1 (by decide +kernel)
  obtain ⟨m', parsed'⟩ : ∃ m, Metadata.parse addedText = .ok m := isOk_iff_exists.1 (by decide +kernel)
  have hinputs : (Metadata.parse omittedText).toOption.map (fun m => m.standardJson.toValue.text)
      ≠ (Metadata.parse addedText).toOption.map fun m => m.standardJson.toValue.text := by
    decide +kernel
  rw [parsed, parsed'] at hinputs
  refine ⟨⟨ended, gains⟩, m, m', parsed, parsed', fun hencode => hinputs ?_⟩
  exact congrArg some (String.ofList_injective hencode)

end Provenance
