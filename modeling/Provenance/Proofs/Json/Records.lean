import Mathlib.Data.List.Pairwise
import Provenance.Proofs.Json.Decoding

/-!
# Records

A record takes the members of an object one after another. Where its fields may be left out and what they store
does not depend on the order in which they are given, it is read from no more than the value of a document
(`Record.Orderless.readsValues`).
-/

namespace Provenance.Json

variable {σ : Type}

/-! ## Fields -/

/-- What two fields store does not depend on their order. -/
def Field.Commutes (f g : Field σ) : Prop :=
  ∀ ⦃depth depth' n n' s t⦄, f.read depth n = .ok s → g.read depth' n' = .ok t →
    ∀ x, s (t x) = t (s x)

/-- What a field stores does not depend on the members that were kept. -/
def Field.SparesKept (keep : String → Value → σ → σ) (f : Field σ) : Prop :=
  ∀ ⦃depth n store⦄, f.read depth n = .ok store → ∀ k v x, keep k v (store x) = store (keep k v x)

/-- What a field stores is what a decoder reads. -/
def Field.Stores {α : Type} (f : Field σ) (d : Decoder α) (store : α → σ → σ) : Prop :=
  ∀ depth n, f.read depth n = (d depth n).map store

section
variable {α β : Type} {f g : Field σ} {name name' : String} {aliases : List String} {required : Bool}
  {d : Decoder α} {d' : Decoder β} {store : α → σ → σ} {store' : β → σ → σ}
  {keep : String → Value → σ → σ}

theorem Field.Stores.commutes (hf : f.Stores d store) (hg : g.Stores d' store')
    (h : ∀ a b x, store a (store' b x) = store' b (store a x)) : f.Commutes g := by
  intro depth depth' n n' s t hs ht x
  obtain ⟨a, -, rfl⟩ := map_eq_ok_iff.1 (hf depth n ▸ hs)
  obtain ⟨b, -, rfl⟩ := map_eq_ok_iff.1 (hg depth' n' ▸ ht)
  exact h a b x

theorem Field.Stores.sparesKept (hf : f.Stores d store)
    (h : ∀ k v a x, keep k v (store a x) = store a (keep k v x)) : f.SparesKept keep := by
  intro depth n s hs k v x
  obtain ⟨a, -, rfl⟩ := map_eq_ok_iff.1 (hf depth n ▸ hs)
  exact h k v a x

namespace Field

@[simp] theorem name_optional : (optional name d store).name = name := rfl

@[simp] theorem aliases_optional : (optional name d store).aliases = [] := rfl

@[simp] theorem required_optional : (optional name d store).required = false := rfl

theorem stores_optional : (optional name d store).Stores d store := fun _ _ => rfl

@[simp] theorem commutes_optional (h : ∀ a b x, store a (store' b x) = store' b (store a x)) :
    (optional name d store).Commutes (optional name' d' store') :=
  stores_optional.commutes stores_optional h

@[simp] theorem sparesKept_optional (h : ∀ k v a x, keep k v (store a x) = store a (keep k v x)) :
    (optional name d store).SparesKept keep :=
  stores_optional.sparesKept h

/-- Other names of a field have nothing to do with what it stores. -/
@[simp] theorem commutes_mk : f.Commutes ⟨name, aliases, required, g.read⟩ ↔ f.Commutes g := .rfl

end Field

end

namespace Record

variable {r : Record σ} {depth index : Nat} {seen seen' : List String} {state state' : σ}

/-- What a member of an object does to a record: the field that it gives, if there is one, and the change. -/
inductive Takes (r : Record σ) (depth : Nat) : Key × Node → Option String × (σ → σ) → Prop
  | field {key n k f store} (named : key.text = .ok k) (known : r.field? k = some f)
    (stored : f.read depth n = .ok store) : Takes r depth (key, n) (some f.name, store)
  | kept {key n k keep v} (named : key.text = .ok k) (unknown : r.field? k = none)
    (keeps : r.keep = some keep) (valued : Value.ofNode depth n = .ok v) :
    Takes r depth (key, n) (none, keep k v)
  | passed {key n k} (named : key.text = .ok k) (unknown : r.field? k = none) (keeps : r.keep = none)
    (passes : n.passFailure? = none) : Takes r depth (key, n) (none, id)

theorem Takes.named {m : Key × Node} {c : Option String × (σ → σ)} (h : r.Takes depth m c) :
    ∃ k, m.1.text = .ok k := by
  cases h <;> exact ⟨_, ‹_›⟩

/-- The fields that some members give, the last one first. -/
def given (changes : List (Option String × (σ → σ))) : List String :=
  (changes.filterMap (·.1)).reverse

/-- A record after some changes. -/
def changed (state : σ) (changes : List (Option String × (σ → σ))) : σ :=
  changes.foldl (fun s change => change.2 s) state

theorem given_cons {c : Option String × (σ → σ)} {changes : List (Option String × (σ → σ))} :
    given (c :: changes) ++ seen = given changes ++ (c.1.toList ++ seen) := by
  obtain ⟨name, store⟩ := c
  cases name <;> simp [given]

theorem nodup_toList_append {name : Option String} :
    (name.toList ++ seen).Nodup ↔ (∀ n ∈ name, n ∉ seen) ∧ seen.Nodup := by
  cases name <;> simp

theorem checkFresh_eq_ok_iff {key : Key} {k : String} (hk : key.text = .ok k) :
    r.checkFresh seen key = .ok () ↔ ∀ f, r.field? k = some f → f.name ∉ seen := by
  cases hfield : r.field? k with
  | none => simp [checkFresh, hk, hfield, bind, Except.bind]
  | some f => by_cases h : f.name ∈ seen <;> simp [checkFresh, hk, hfield, h, bind, Except.bind]

/-- A member is taken if it gives no field again, and the others go on from there. -/
theorem members_cons_eq_ok_iff {m : Key × Node} {members : List (Key × Node)} {out : List String × σ} :
    r.members depth seen state (m :: members) = .ok out ↔
      ∃ c, r.Takes depth m c ∧ (∀ name ∈ c.1, name ∉ seen) ∧
        r.members depth (c.1.toList ++ seen) (c.2 state) members = .ok out := by
  obtain ⟨key, n⟩ := m
  rw [Record.members]
  constructor
  · intro h
    obtain ⟨_, hfresh, h⟩ := bind_eq_ok_iff.1 h
    obtain ⟨k, hk, h⟩ := bind_eq_ok_iff.1 h
    split at h
    · next f hf =>
      obtain ⟨store, hstore, h⟩ := bind_eq_ok_iff.1 h
      refine ⟨(some f.name, store), .field hk hf (inside_eq_ok_iff.1 hstore), ?_, h⟩
      rintro _ ⟨⟩
      exact (checkFresh_eq_ok_iff hk).1 hfresh f hf
    · next hf =>
      split at h
      · next keep hkeep =>
        obtain ⟨v, hv, h⟩ := bind_eq_ok_iff.1 h
        exact ⟨(none, keep k v), .kept hk hf hkeep (inside_eq_ok_iff.1 hv), by simp, h⟩
      · next hkeep =>
        split at h
        · cases h
        · next hpass => exact ⟨(none, id), .passed hk hf hkeep hpass, by simp, h⟩
  · rintro ⟨c, htake, hnew, h⟩
    obtain ⟨k, hk⟩ := htake.named
    have hfresh : r.checkFresh seen key = .ok () := (checkFresh_eq_ok_iff hk).2 fun f hf => by
      cases htake with
      | field hk' hf' =>
        cases hk.symm.trans hk'
        cases hf.symm.trans hf'
        exact hnew _ rfl
      | kept hk' hf' | passed hk' hf' =>
        cases hk.symm.trans hk'
        cases hf.symm.trans hf'
    refine bind_eq_ok_iff.2 ⟨(), hfresh, ?_⟩
    cases htake with
    | field hk hf hstore =>
      refine bind_eq_ok_iff.2 ⟨_, hk, ?_⟩
      rw [hf]
      exact bind_eq_ok_iff.2 ⟨_, inside_eq_ok_iff.2 hstore, h⟩
    | kept hk hf hkeep hv =>
      refine bind_eq_ok_iff.2 ⟨_, hk, ?_⟩
      rw [hf, hkeep]
      exact bind_eq_ok_iff.2 ⟨_, inside_eq_ok_iff.2 hv, h⟩
    | passed hk hf hkeep hpass =>
      refine bind_eq_ok_iff.2 ⟨_, hk, ?_⟩
      rw [hf, hkeep, hpass]
      exact h

/-- The members of an object are taken one after another, and none gives a field again. -/
theorem members_eq_ok_iff {members : List (Key × Node)} (hseen : seen.Nodup) :
    r.members depth seen state members = .ok (seen', state') ↔
      ∃ changes, List.Forall₂ (r.Takes depth) members changes ∧
        given changes ++ seen = seen' ∧ seen'.Nodup ∧ changed state changes = state' := by
  induction members generalizing seen state with
  | nil =>
    constructor
    · intro h
      cases h
      exact ⟨[], .nil, rfl, hseen, rfl⟩
    · rintro ⟨_, ⟨⟩, rfl, -, rfl⟩
      rfl
  | cons m members ih =>
    rw [members_cons_eq_ok_iff]
    constructor
    · rintro ⟨c, htake, hnew, h⟩
      obtain ⟨changes, htaken, hgiven, hrest⟩ := (ih (nodup_toList_append.2 ⟨hnew, hseen⟩)).1 h
      exact ⟨c :: changes, .cons htake htaken, given_cons.trans hgiven, hrest⟩
    · rintro ⟨_, hall, hgiven, hnodup, hstate⟩
      obtain ⟨c, changes, htake, htaken, rfl⟩ := List.forall₂_cons_left_iff.1 hall
      -- what was seen before the other members has no name twice, as it is part of what was seen in the end
      rw [given_cons] at hgiven
      have hseen' : (c.1.toList ++ seen).Nodup := (List.nodup_append.1 (hgiven ▸ hnodup)).2.1
      exact ⟨c, htake, (nodup_toList_append.1 hseen').1,
        (ih hseen').2 ⟨changes, htaken, hgiven, hnodup, hstate⟩⟩

theorem ofObject_eq_ok_iff {members : List (Key × Node)} {ending : ObjectEnd}
    (hoptional : ∀ f ∈ r.fields, f.required = false) :
    r.ofObject depth members ending = .ok state ↔
      ending.check = .ok () ∧ ∃ changes, List.Forall₂ (r.Takes depth) members changes ∧
        (given changes).Nodup ∧ changed r.blank changes = state := by
  have hmissing : ∀ seen, r.missing? seen = none := fun seen =>
    List.find?_eq_none.2 fun f hf => by simp [hoptional f hf]
  rw [ofObject, bind_eq_ok_iff]
  constructor
  · rintro ⟨⟨seen, made⟩, hmembers, hend⟩
    obtain ⟨changes, htaken, rfl, hnodup, rfl⟩ := (members_eq_ok_iff List.nodup_nil).1 hmembers
    rw [List.append_nil] at hnodup
    cases ending with
    | closed stop =>
      simp only [hmissing] at hend
      cases hend
      exact ⟨rfl, changes, htaken, hnodup, rfl⟩
    | noColon key b =>
      obtain ⟨_, _, hbreak⟩ := bind_eq_ok_iff.1 hend
      cases hbreak
    | broken | brokenKey => cases hend
    | unreached =>
      cases hend
      exact ⟨rfl, changes, htaken, hnodup, rfl⟩
  · rintro ⟨hend, changes, htaken, hnodup, rfl⟩
    refine ⟨(given changes, changed r.blank changes), (members_eq_ok_iff List.nodup_nil).2
      ⟨changes, htaken, List.append_nil _, hnodup, rfl⟩, ?_⟩
    obtain ⟨stop, rfl⟩ | rfl := ObjectEnd.check_eq_ok_iff.1 hend
    · simp only [hmissing, pure, Except.pure]
    · rfl

theorem decoder_object_eq_ok_iff {start : Rest} {members : List (Key × Node)} {ending : ObjectEnd}
    (hoptional : ∀ f ∈ r.fields, f.required = false) :
    r.decoder depth (.object start members ending) = .ok state ↔
      depth < maxNesting ∧ ending.check = .ok () ∧
        ∃ changes, List.Forall₂ (r.Takes (depth + 1)) members changes ∧
          (given changes).Nodup ∧ changed r.blank changes = state := by
  rw [decoder, nested_eq_ok_iff, ofObject_eq_ok_iff hoptional]

/-! ## What every member preserves -/

/-- Whatever is taken from a member at some depth leaves a property of the record. -/
structure Preserves (r : Record σ) (depth : Nat) (P : σ → Prop) : Prop where
  fields : ∀ f ∈ r.fields, ∀ ⦃n store⦄, f.read depth n = .ok store → ∀ x, P x → P (store x)
  keep : ∀ keep ∈ r.keep, ∀ k v x, P x → P (keep k v x)

namespace Preserves

variable {P : σ → Prop}

theorem members (h : r.Preserves depth P) {members : List (Key × Node)} (hstate : P state)
    (hread : r.members depth seen state members = .ok (seen', state')) : P state' := by
  induction members generalizing seen state with
  | nil =>
    cases hread
    exact hstate
  | cons m members ih =>
    obtain ⟨c, htake, -, hrest⟩ := members_cons_eq_ok_iff.1 hread
    refine ih ?_ hrest
    cases htake with
    | field _ known stored => exact h.fields _ (List.mem_of_find?_eq_some known) stored _ hstate
    | kept _ _ keeps => exact h.keep _ keeps _ _ _ hstate
    | passed => exact hstate

theorem elements (h : r.Preserves depth P) {fields : List (Field σ)} (hfields : ∀ f ∈ fields, f ∈ r.fields)
    {nodes : List Node} {ending : ListEnd} (hstate : P state)
    (hread : r.elements depth ending index state fields nodes = .ok state') : P state' := by
  induction fields generalizing index state nodes with
  | nil =>
    cases nodes with
    | nil =>
      cases ending <;> cases hread <;> exact hstate
    | cons n nodes => cases hread
  | cons f fields ih =>
    have hrest := fun g hg => hfields g (List.mem_cons_of_mem _ hg)
    cases nodes with
    | nil =>
      cases hrequired : f.required with
      | false =>
        refine @ih (index + 1) state hrest [] hstate ?_
        cases ending with
        | broken => cases hread
        | closed | unreached =>
          simpa [Record.elements, ListEnd.check, bind, Except.bind, hrequired] using hread
      | true =>
        cases ending with
        | broken => cases hread
        | closed stop => simp [Record.elements, ListEnd.check, bind, Except.bind, hrequired] at hread
        | unreached =>
          obtain rfl : state = state' := by
            simpa [Record.elements, ListEnd.check, bind, Except.bind, hrequired] using hread
          exact hstate
    | cons n nodes =>
      rw [Record.elements] at hread
      obtain ⟨store, hstore, hread⟩ := bind_eq_ok_iff.1 hread
      have hstored := h.fields f (hfields f List.mem_cons_self) (inside_eq_ok_iff.1 hstore) _ hstate
      exact ih hrest hstored hread

/-- A record that is read has the property if the blank one has it. -/
theorem decoder (h : r.Preserves (depth + 1) P) (hblank : P r.blank) {n : Node}
    (hread : r.decoder depth n = .ok state) : P state := by
  cases n with
  | object start members ending =>
    rw [Record.decoder, nested_eq_ok_iff, ofObject] at hread
    obtain ⟨⟨seen, made⟩, hmembers, hend⟩ := bind_eq_ok_iff.1 hread.2
    have hmade : P made := h.members hblank hmembers
    cases ending with
    | closed stop =>
      dsimp only at hend
      split at hend
      · cases hend
      · cases hend
        exact hmade
    | noColon key b =>
      obtain ⟨_, -, hbreak⟩ := bind_eq_ok_iff.1 hend
      cases hbreak
    | broken | brokenKey => cases hend
    | unreached =>
      cases hend
      exact hmade
  | array start nodes ending =>
    rw [Record.decoder] at hread
    split at hread
    · cases hread
    · rw [nested_eq_ok_iff] at hread
      exact h.elements (fun _ hf => hf) hblank hread.2
  | _ => cases hread

end Preserves

/-! ## Records of which the order does not matter -/

/-- A record whose fields may be left out and given in any order. -/
structure Orderless (r : Record σ) : Prop where
  optional : ∀ f ∈ r.fields, f.required = false
  reads : ∀ f ∈ r.fields, f.read.ReadsValues
  commutes : r.fields.Pairwise Field.Commutes
  sparesKept : ∀ keep ∈ r.keep, ∀ f ∈ r.fields, f.SparesKept keep
  keep_comm : ∀ keep ∈ r.keep, ∀ ⦃k k'⦄, k ≠ k' →
    ∀ v v' x, keep k v (keep k' v' x) = keep k' v' (keep k v x)

namespace Orderless

theorem field?_mem {k : String} {f : Field σ} (h : r.field? k = some f) : f ∈ r.fields :=
  List.mem_of_find?_eq_some h

/-- What is taken from two members with different keys that do not give one field commutes. -/
theorem takes_comm (h : r.Orderless) {m m' : Key × Node} {c c' : Option String × (σ → σ)}
    (hc : r.Takes depth m c) (hc' : r.Takes depth m' c') (hkey : m.1.text ≠ m'.1.text)
    (hname : ∀ name ∈ c.1, name ∉ c'.1) (x : σ) : c.2 (c'.2 x) = c'.2 (c.2 x) := by
  cases hc with
  | @field _ _ k f store hk hf hstore =>
    cases hc' with
    | @field _ _ k' g store' hk' hg hstore' =>
      -- two keys may name one field by its aliases, which only the names that were given exclude
      have hne : f ≠ g := by
        rintro rfl
        exact hname f.name rfl rfl
      have hsymm : Std.Symm (Field.Commutes (σ := σ)) :=
        ⟨fun f g hfg depth depth' n n' s t hs ht x => (hfg ht hs x).symm⟩
      exact h.commutes.forall (field?_mem hf) (field?_mem hg) hne hstore hstore' x
    | kept hk' hg hkeep hv => exact (h.sparesKept _ hkeep f (field?_mem hf) hstore _ _ x).symm
    | passed => rfl
  | kept hk hf hkeep hv =>
    cases hc' with
    | @field _ _ k' g store' hk' hg hstore' =>
      exact h.sparesKept _ hkeep g (field?_mem hg) hstore' _ _ x
    | kept hk' hg hkeep' hv' =>
      cases hkeep.symm.trans hkeep'
      refine h.keep_comm _ hkeep (fun hkk => hkey ?_) _ _ x
      rw [hk, hk', hkk]
    | passed => rfl
  | passed => rfl

/-- The changes of members with different keys of which no two give one field may be made in any order. -/
theorem changed_eq_of_perm (h : r.Orderless) {members : List (Key × Node)}
    {changes changes' : List (Option String × (σ → σ))}
    (htaken : List.Forall₂ (r.Takes depth) members changes)
    (hkeys : (keyTexts members).Nodup) (hgiven : (given changes).Nodup)
    (hperm : changes.Perm changes') : changed state changes = changed state changes' := by
  -- any two of the changes commute, so the fold over them forgets their order
  have hpairs : changes.Pairwise fun c c' => ∀ x, c.2 (c'.2 x) = c'.2 (c.2 x) := by
    rw [given, List.nodup_reverse] at hgiven
    clear hperm
    induction htaken with
    | nil => exact .nil
    | @cons m c members changes htake htaken ih =>
      obtain ⟨k, hk⟩ := htake.named
      rw [keyTexts_cons hk] at hkeys
      obtain ⟨hkey, hkeys⟩ := List.nodup_cons.1 hkeys
      have hrest := hgiven.sublist ((List.sublist_cons_self c changes).filterMap _)
      refine List.pairwise_cons.2 ⟨fun c' hc' => ?_, ih hkeys hrest⟩
      obtain ⟨m', hm', htake'⟩ := exists_mem_of_forall₂ htaken hc'
      refine h.takes_comm htake htake' (fun heq => hkey (mem_keyTexts hm' (heq ▸ hk))) ?_
      intro name hname hname'
      rw [List.filterMap_cons_some hname] at hgiven
      exact (List.nodup_cons.1 hgiven).1 (List.mem_filterMap.2 ⟨c', hc', hname'⟩)
  have hsymm : Std.Symm fun c c' : Option String × (σ → σ) => ∀ x, c.2 (c'.2 x) = c'.2 (c.2 x) :=
    ⟨fun _ _ hcc' x => (hcc' x).symm⟩
  refine hperm.foldl_eq' (fun c hc c' hc' x => ?_) state
  exact hpairs.forall_of_forall (fun _ _ _ => rfl) hc' hc x

/-- The same is taken from two members with one key and one value. -/
theorem takes_of_same (h : r.Orderless) {m m' : Key × Node} {e : String × Value}
    {c : Option String × (σ → σ)} (hm : HasEntry depth m e) (hm' : HasEntry depth m' e)
    (hunique : m.2.HasUniqueKeys) (hunique' : m'.2.HasUniqueKeys) (hc : r.Takes depth m c) :
    r.Takes depth m' c := by
  have hkey : m'.1.text = m.1.text := hm'.1.trans hm.1.symm
  obtain ⟨key', n'⟩ := m'
  cases hc with
  | field hk hf hstore =>
    exact .field (hkey.trans hk) hf
      (h.reads _ (field?_mem hf) hm.2 hm'.2 hunique hunique' hstore)
  | kept hk hf hkeep hv =>
    cases hv.symm.trans hm.2
    exact .kept (hkey.trans hk) hf hkeep hm'.2
  | passed hk hf hkeep hpass => exact .passed (hkey.trans hk) hf hkeep (passFailure?_eq_none hm'.2)

/-- Fields may be missing at the end of a list. -/
theorem elements_nil {fields : List (Field σ)} {ending : ListEnd}
    (hoptional : ∀ f ∈ fields, f.required = false) (hend : ending.check = .ok ()) :
    r.elements depth ending index state fields [] = .ok state := by
  induction fields generalizing index with
  | nil =>
    cases ending with
    | broken => cases hend
    | closed | unreached => rfl
  | cons f fields ih =>
    have hf := hoptional f List.mem_cons_self
    have hrest := @ih (index + 1) fun g hg => hoptional g (List.mem_cons_of_mem _ hg)
    cases ending with
    | broken => cases hend
    | closed | unreached => simpa [Record.elements, ListEnd.check, bind, Except.bind, hf] using hrest

/-- The same is read from two lists with the same values. -/
theorem elements_of_same {fields : List (Field σ)} {ending ending' : ListEnd} {vs : List Value}
    (hoptional : ∀ f ∈ fields, f.required = false) (hreads : ∀ f ∈ fields, f.read.ReadsValues)
    (hend : ending.check = .ok ()) (hend' : ending'.check = .ok ()) {nodes nodes' : List Node}
    (hnodes : List.Forall₂ (fun n v => n.HasUniqueKeys ∧ Value.ofNode depth n = .ok v) nodes vs)
    (hnodes' : List.Forall₂ (fun n v => n.HasUniqueKeys ∧ Value.ofNode depth n = .ok v) nodes' vs)
    (helements : r.elements depth ending index state fields nodes = .ok state') :
    r.elements depth ending' index state fields nodes' = .ok state' := by
  induction fields generalizing index state nodes nodes' vs with
  | nil =>
    cases hnodes with
    | nil =>
      cases hnodes'
      rw [elements_nil hoptional hend] at helements
      rw [elements_nil hoptional hend', helements]
    | cons => cases helements
  | cons f fields ih =>
    cases hnodes with
    | nil =>
      cases hnodes'
      rw [elements_nil hoptional hend] at helements
      rw [elements_nil hoptional hend', helements]
    | cons hn hnodes =>
      cases hnodes' with
      | cons hn' hnodes' =>
        rw [Record.elements] at helements ⊢
        obtain ⟨store, hstore, hrest⟩ := bind_eq_ok_iff.1 helements
        have hstore' := hreads f List.mem_cons_self hn.2 hn'.2 hn.1 hn'.1 (inside_eq_ok_iff.1 hstore)
        exact bind_eq_ok_iff.2 ⟨store, inside_eq_ok_iff.2 hstore',
          ih (fun g hg => hoptional g (List.mem_cons_of_mem _ hg))
            (fun g hg => hreads g (List.mem_cons_of_mem _ hg)) hnodes hnodes' hrest⟩

/-- A record of which the order does not matter is read from the value of a document. -/
theorem readsValues (h : r.Orderless) : r.decoder.ReadsValues := by
  intro depth n n' v state hv hv' hn hn' hstate
  cases ofNode_eq_ok_iff.1 hv with
  | array shallow items ended =>
    cases ofNode_eq_ok_iff.1 hv' with
    | array shallow' items' ended' =>
      rw [decoder] at hstate ⊢
      split at hstate
      · cases hstate
      · next hkeep =>
        rw [if_neg hkeep, nested_eq_ok_iff]
        rw [nested_eq_ok_iff] at hstate
        exact ⟨shallow', elements_of_same h.optional h.reads ended ended'
          ((List.forall₂_and_left _ _).2 ⟨itemsHaveUniqueKeys_iff.1 hn, items⟩)
          ((List.forall₂_and_left _ _).2 ⟨itemsHaveUniqueKeys_iff.1 hn', items'⟩) hstate.2⟩
  | object shallow held made ended =>
    cases ofNode_eq_ok_iff.1 hv' with
    | object shallow' held' made' ended' =>
      obtain ⟨-, -, changes, htaken, hgiven, rfl⟩ := (decoder_object_eq_ok_iff h.optional).1 hstate
      obtain ⟨changes', hperm, htaken'⟩ := exists_perm_of_same_members
        (R := r.Takes (depth + 1)) h.takes_of_same held held' (made.trans made'.symm) hn hn' htaken
      have hgiven' : (given changes').Nodup :=
        List.nodup_reverse.2 ((hperm.filterMap _).nodup_iff.1 (List.nodup_reverse.1 hgiven))
      exact (decoder_object_eq_ok_iff h.optional).2 ⟨shallow', ended', changes', htaken', hgiven',
        (h.changed_eq_of_perm htaken hn.1 hgiven hperm).symm⟩
  | _ => cases hstate

end Orderless

end Record

end Provenance.Json
