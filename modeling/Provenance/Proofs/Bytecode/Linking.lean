import Provenance.Proofs.Bytecode.Places
import Provenance.Proofs.Dictionary

/-!
# Linking templates

A template can be linked exactly when the deployed code holds an address at the first place of every
token, and the result is the template with these addresses in all places (`link_code_eq_ok_iff`). If
the deployed code has digits only, linking fails just where the code ends too early.
-/

namespace Provenance.Bytecode

open Text

/-! ## Addresses in the deployed code -/

/-- There is an address where as many bytes as it takes are all digits. -/
theorem addressAt_eq_ok_iff {actual placeholder found : List Char} {offset : Nat} :
    addressAt actual placeholder offset = .ok found ↔
      ∃ a : Digits, a.text = found ∧
        slice? offset (offset + placeholderWidth) actual = some a.text := by
  rw [addressAt]
  cases hs : slice? offset (offset + placeholderWidth) actual with
  | none => simp
  | some part =>
    by_cases hd : part.all Hex.isDigit = true
    · have hlen : part.length = placeholderWidth := by
        obtain ⟨_, _, _, _, hw⟩ := slice?_eq_some_iff.1 hs
        rw [← hw, Hex.byteLength_of_digits hd]
      simp only [hd, if_true, Except.ok.injEq, Option.some.injEq]
      constructor
      · rintro rfl
        exact ⟨⟨part, hlen, hd⟩, rfl, rfl⟩
      · rintro ⟨a, rfl, h⟩
        exact h
    · simp only [hd, Bool.false_eq_true, if_false, reduceCtorEq, false_iff, not_exists, not_and,
        Option.some.injEq]
      rintro a - rfl
      exact hd a.text_digits

/-- In digits an address is missing only where the text ends too early. -/
theorem addressAt_of_digits {actual placeholder : List Char} {offset : Nat}
    (h : actual.all Hex.isDigit = true) :
    addressAt actual placeholder offset
      = if offset + placeholderWidth ≤ actual.length then
          .ok ((actual.drop offset).take placeholderWidth)
        else .error (.outOfRange placeholder offset actual.length) := by
  have hpart : ∀ {l : List Char}, l.Sublist actual → l.all Hex.isDigit = true := by
    intro l hl
    rw [List.all_eq_true] at h ⊢
    exact fun c hc => h c (hl.subset hc)
  have hbytes : ∀ {l : List Char}, l.Sublist actual → byteLength l = l.length :=
    fun hl => Hex.byteLength_of_digits (hpart hl)
  have hmid : ((actual.drop offset).take placeholderWidth).Sublist actual :=
    (List.take_sublist _ _).trans (List.drop_sublist _ _)
  by_cases hle : offset + placeholderWidth ≤ actual.length
  · have hslice : slice? offset (offset + placeholderWidth) actual
        = some ((actual.drop offset).take placeholderWidth) := by
      refine slice?_eq_some_iff.2 ⟨actual.take offset,
        (actual.drop offset).drop placeholderWidth, ?_, ?_, ?_⟩
      · rw [List.take_append_drop, List.take_append_drop]
      · rw [hbytes (List.take_sublist _ _), List.length_take]
        omega
      · rw [hbytes hmid, List.length_take, List.length_drop]
        omega
    simp only [addressAt, hslice, hpart hmid, if_true, if_pos hle]
  · have hslice : slice? offset (offset + placeholderWidth) actual = none := by
      rw [Option.eq_none_iff_forall_not_mem]
      intro part hp
      obtain ⟨before, after, rfl, hb, hw⟩ := slice?_eq_some_iff.1 hp
      have hlen := hbytes (List.Sublist.refl (before ++ (part ++ after)))
      simp only [byteLength_append] at hlen
      omega
    simp only [addressAt, hslice, if_neg hle, hbytes (List.Sublist.refl actual)]

/-! ## All addresses of a template -/

section
variable {actual : List Char} {places : List (Nat × Token)}

/-- All places have an address, or one has none and its error is reported. -/
private theorem resolveAll_snd :
    (resolveAll actual places).2 = none ∧
        (∀ p ∈ places, ∃ a, addressAt actual p.2.code p.1 = .ok a) ∨
      ∃ e, (resolveAll actual places).2 = some e ∧
        ∃ p ∈ places, addressAt actual p.2.code p.1 = .error e := by
  induction places with
  | nil => exact .inl ⟨rfl, by simp⟩
  | cons p places ih =>
    obtain ⟨offset, u⟩ := p
    rw [resolveAll]
    cases ha : addressAt actual u.code offset with
    | error e => exact .inr ⟨e, rfl, (offset, u), List.mem_cons_self, ha⟩
    | ok a =>
      rcases ih with ⟨hnone, hall⟩ | ⟨e, hsome, p, hp, he⟩
      · refine .inl ⟨hnone, fun p hp => ?_⟩
        rcases List.mem_cons.1 hp with rfl | hp
        · exact ⟨a, ha⟩
        · exact hall p hp
      · exact .inr ⟨e, hsome, p, List.mem_cons_of_mem _ hp, he⟩

/-- What was found is the addresses at the places. -/
private theorem mem_resolveAll_fst {r : Resolved} (h : r ∈ (resolveAll actual places).1) :
    ∃ p ∈ places, r.placeholder = p.2.code ∧ addressAt actual p.2.code p.1 = .ok r.address := by
  induction places with
  | nil => simp [resolveAll] at h
  | cons p places ih =>
    obtain ⟨offset, u⟩ := p
    rw [resolveAll] at h
    cases ha : addressAt actual u.code offset with
    | error e => simp [ha] at h
    | ok a =>
      rw [ha] at h
      rcases List.mem_cons.1 h with rfl | h
      · exact ⟨(offset, u), List.mem_cons_self, rfl, ha⟩
      · obtain ⟨p, hp, hr⟩ := ih h
        exact ⟨p, List.mem_cons_of_mem _ hp, hr⟩

/-- If all places have an address, each of them is found. -/
private theorem exists_mem_resolveAll (h : (resolveAll actual places).2 = none)
    {p : Nat × Token} (hp : p ∈ places) :
    ∃ r ∈ (resolveAll actual places).1, r.placeholder = p.2.code := by
  induction places with
  | nil => simp at hp
  | cons q places ih =>
    obtain ⟨offset, u⟩ := q
    rw [resolveAll] at h ⊢
    cases ha : addressAt actual u.code offset with
    | error e => simp [ha] at h
    | ok a =>
      rw [ha] at h
      rcases List.mem_cons.1 hp with rfl | hp
      · exact ⟨⟨u.code, offset, a⟩, List.mem_cons_self, rfl⟩
      · obtain ⟨r, hr, hrp⟩ := ih h hp
        exact ⟨r, List.mem_cons_of_mem _ hr, hrp⟩

end

/-! ## Linking -/

namespace Template

/-- The deployed code holds the address of each token at the token's first place. -/
def Agrees (t : Template) (actual : List Char) (σ : Token → Digits) : Prop :=
  ∀ pre u, t.First pre u →
    slice? pre.width (pre.width + placeholderWidth) actual = some (σ u).text

variable {t b d pre : Template} {u : Token} {actual : List Char} {σ : Token → Digits}

theorem mem_firsts_zero {k : Nat} :
    (k, u) ∈ t.firsts 0 [] ↔ ∃ pre, t.First pre u ∧ k = pre.width := by
  simp [mem_firsts]

/-- A code that begins with a linked template agrees with it. -/
theorem agrees_linked_append (t : Template) (σ : Token → Digits) (rest : List Char) :
    t.Agrees (t.linked σ ++ rest) σ := by
  rintro pre u ⟨-, post, rfl⟩
  refine slice?_eq_some_iff.2 ⟨pre.linked σ, linked σ post ++ rest, ?_, byteLength_linked,
    (σ u).byteLength_text⟩
  simp only [linked, fill_append, fill, List.append_assoc]

/-- Symbols without tokens at the end do not matter. -/
theorem Agrees.append (h : b.Agrees actual σ) (hd : ∀ u, .token u ∉ d) :
    (b ++ d).Agrees actual σ := by
  rintro pre u ⟨hno, post, heq⟩
  rcases List.append_eq_append_iff.1 heq with ⟨c, rfl, hc⟩ | ⟨c, rfl, hc⟩
  · exact absurd (hc ▸ List.mem_append_right c List.mem_cons_self) (hd u)
  · cases c with
    | nil =>
      rw [List.nil_append] at hc
      exact absurd (hc ▸ List.mem_cons_self) (hd u)
    | cons x c =>
      obtain ⟨rfl, rfl⟩ := List.cons.inj hc
      exact h pre u ⟨hno, c, rfl⟩

end Template

open Template

variable {t : Template} {actual linked : List Char} {e : LinkError}

/-- Every entry is a token with its address, and every token of the template has an entry. -/
structure Addresses.Serve (d : Addresses) (t : Template) (σ : Token → Digits) : Prop where
  entries : ∀ entry ∈ d, ∃ u : Token, entry = (u.code, (σ u).text)
  complete : ∀ u, .token u ∈ t → ∃ entry ∈ d, entry.1 = u.code

/-- The order of the entries does not matter. -/
theorem Addresses.Serve.perm {d order : Addresses} {σ : Token → Digits} (h : d.Serve t σ)
    (hperm : order.Perm d) : order.Serve t σ where
  entries entry he := h.entries entry (hperm.subset he)
  complete u hu := by
    obtain ⟨entry, he, hkey⟩ := h.complete u hu
    exact ⟨entry, hperm.symm.subset he, hkey⟩

/-- Each token gets its address. -/
theorem substitute_of_serve {d : Addresses} {σ : Token → Digits} (h : d.Serve t σ) :
    substitute d t.code = t.linked σ := by
  have hvalid : Addresses.Valid d := by
    intro entry he
    obtain ⟨u, hu⟩ := h.entries entry he
    exact ⟨u, σ u, hu⟩
  rw [substitute_code hvalid, Template.linked]
  refine fill_congr fun u hu => ?_
  have hget : Dictionary.get? u.code d = some (σ u).text := by
    refine Dictionary.get?_eq_some_of_forall (h.complete u hu) ?_
    intro entry he hkey
    obtain ⟨v, rfl⟩ := h.entries entry he
    rw [Token.code_inj.1 hkey]
  rw [hget, Option.getD_some]

/-- What is collected from a code that holds the addresses. -/
theorem collect_of_agrees {σ : Token → Digits} (h : t.Agrees actual σ) :
    ∃ d, collect t.code actual = .ok d ∧ d.Serve t σ := by
  have haddr : ∀ p ∈ t.firsts 0 [], addressAt actual p.2.code p.1 = .ok (σ p.2).text := by
    rintro ⟨k, u⟩ hp
    obtain ⟨pre, hpre, rfl⟩ := mem_firsts_zero.1 hp
    exact addressAt_eq_ok_iff.2 ⟨σ u, rfl, h pre u hpre⟩
  -- every place has an address, so the scan reaches the end
  have hnone : (resolveAll actual (t.firsts 0 [])).2 = none := by
    rcases resolveAll_snd with ⟨hnone, -⟩ | ⟨e, -, p, hp, he⟩
    · exact hnone
    · rw [haddr p hp] at he
      cases he
  generalize hfound : (resolveAll actual (t.firsts 0 [])).1 = found
  have hscan : scan t.code actual = (found, none) := by
    rw [scan_code, ← hfound, ← hnone]
  -- every entry that is put in is a token of the template with its address
  have hentry : ∀ r ∈ found, ∃ u : Token, (r.placeholder, r.address) = (u.code, (σ u).text) := by
    intro r hr
    obtain ⟨p, hp, hcode, ha⟩ := mem_resolveAll_fst (hfound ▸ hr)
    rw [haddr p hp, Except.ok.injEq] at ha
    exact ⟨p.2, by rw [hcode, ha]⟩
  refine ⟨Dictionary.ofList (found.map fun r => (r.placeholder, r.address)), ?_, ?_, ?_⟩
  · rw [collect, hscan]
  · intro entry he
    obtain ⟨r, hr, rfl⟩ := List.mem_map.1 (Dictionary.mem_of_mem_ofList he)
    exact hentry r hr
  · intro u hu
    obtain ⟨pre, hpre⟩ := exists_first hu
    obtain ⟨r, hr, hcode⟩ := exists_mem_resolveAll hnone (mem_firsts_zero.2 ⟨pre, hpre, rfl⟩)
    obtain ⟨entry, he, hkey⟩ := Dictionary.exists_mem_ofList
      (List.mem_map_of_mem (f := fun r : Resolved => (r.placeholder, r.address)) (hfound ▸ hr))
    exact ⟨entry, he, hkey.trans hcode⟩

/-- Linking with the addresses that the deployed code holds. -/
theorem link_of_agrees {σ : Token → Digits} (h : t.Agrees actual σ) :
    link t.code actual = .ok (t.linked σ) := by
  obtain ⟨d, hcollect, hserve⟩ := collect_of_agrees h
  rw [link, hcollect, Except.map, substitute_of_serve hserve]

/-- Linking succeeds, or some token has no address at its first place. -/
theorem link_code_cases :
    (∃ σ, t.Agrees actual σ) ∨
      ∃ e pre u, link t.code actual = .error e ∧ t.First pre u ∧
        addressAt actual u.code pre.width = .error e := by
  rcases @resolveAll_snd actual (t.firsts 0 []) with ⟨-, hall⟩ | ⟨e, hsome, p, hp, he⟩
  · -- each token has one first place, so the addresses make a function
    have haddr : ∀ u, ∃ a : Digits, ∀ pre, t.First pre u →
        slice? pre.width (pre.width + placeholderWidth) actual = some a.text := by
      intro u
      by_cases hu : ∃ pre, t.First pre u
      · obtain ⟨pre, hpre⟩ := hu
        obtain ⟨found, hfound⟩ := hall (pre.width, u) (mem_firsts_zero.2 ⟨pre, hpre, rfl⟩)
        obtain ⟨a, -, ha⟩ := addressAt_eq_ok_iff.1 hfound
        refine ⟨a, fun pre' hpre' => ?_⟩
        rw [hpre'.unique hpre]
        exact ha
      · exact ⟨default, fun pre hpre => absurd ⟨pre, hpre⟩ hu⟩
    obtain ⟨σ, hσ⟩ := Classical.skolem.1 haddr
    exact .inl ⟨σ, fun pre u => hσ u pre⟩
  · obtain ⟨k, u⟩ := p
    obtain ⟨pre, hpre, rfl⟩ := mem_firsts_zero.1 hp
    refine .inr ⟨e, pre, u, ?_, hpre, he⟩
    rw [link, collect, scan_code]
    generalize resolveAll actual (t.firsts 0 []) = r at hsome
    obtain ⟨found, err⟩ := r
    obtain rfl : err = some e := hsome
    rfl

/-- A template can be linked exactly with the addresses at the first places of its tokens. -/
theorem link_code_eq_ok_iff :
    link t.code actual = .ok linked ↔ ∃ σ, t.Agrees actual σ ∧ linked = t.linked σ := by
  constructor
  · intro h
    rcases @link_code_cases t actual with ⟨σ, hσ⟩ | ⟨e, -, -, he, -⟩
    · rw [link_of_agrees hσ, Except.ok.injEq] at h
      exact ⟨σ, hσ, h.symm⟩
    · rw [he] at h
      cases h
  · rintro ⟨σ, hσ, rfl⟩
    exact link_of_agrees hσ

/-- Code of digits has nothing to be linked. -/
theorem link_of_digits {cs : List Char} (hd : cs.all Hex.isDigit = true) (actual : List Char) :
    link cs actual = .ok cs := by
  obtain ⟨d, hno, hfill⟩ := exists_of_digits hd
  have hagrees : d.Agrees actual default := by
    intro pre u h
    obtain ⟨-, post, rfl⟩ := h
    exact absurd (List.mem_append_right pre List.mem_cons_self) (hno u)
  have hlink := link_of_agrees hagrees
  rw [code, linked, hfill, hfill] at hlink
  exact hlink

/-- In digits linking fails only where the deployed code ends before the first place of some token
does. -/
theorem link_of_digits_cases (hd : actual.all Hex.isDigit = true) :
    ((∃ σ, t.Agrees actual σ) ∧
        ∀ pre u, t.First pre u → pre.width + placeholderWidth ≤ actual.length) ∨
      ∃ pre u, t.First pre u ∧ actual.length < pre.width + placeholderWidth ∧
        link t.code actual = .error (.outOfRange u.code pre.width actual.length) := by
  rcases @link_code_cases t actual with ⟨σ, hσ⟩ | ⟨e, pre, u, hlink, hfirst, haddr⟩
  · refine .inl ⟨⟨σ, hσ⟩, ?_⟩
    intro pre u hfirst
    -- the address was cut out of the code, so the code reaches its end
    obtain ⟨before, after, hactual, hb, hw⟩ := slice?_eq_some_iff.1 (hσ pre u hfirst)
    have hlen := congrArg byteLength hactual
    rw [Hex.byteLength_of_digits hd, byteLength_append, byteLength_append, hb, hw] at hlen
    omega
  · refine .inr ⟨pre, u, hfirst, ?_⟩
    rw [addressAt_of_digits hd] at haddr
    split at haddr
    · cases haddr
    · next hlen =>
      rw [hlink, ← Except.error.inj haddr]
      exact ⟨Nat.lt_of_not_le hlen, rfl⟩

/-- A template becomes the deployed code itself exactly when some addresses make it so. -/
theorem link_code_eq_self_iff :
    link t.code actual = .ok actual ↔ ∃ σ, t.linked σ = actual := by
  rw [link_code_eq_ok_iff]
  constructor
  · rintro ⟨σ, -, h⟩
    exact ⟨σ, h.symm⟩
  · rintro ⟨σ, rfl⟩
    refine ⟨σ, ?_, rfl⟩
    simpa using t.agrees_linked_append σ []

end Provenance.Bytecode
