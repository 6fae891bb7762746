import Provenance.Proofs.Chain.Replies
import Provenance.Proofs.Http.Course

/-!
# Asking the endpoints of a registry

A registry that was read has a node for each of its chains (`Registry.exists_rpc`), so that a chain is unsupported
exactly if it is not registered. What is told of any other chain is what the reply of its endpoint tells, and no
reply is taken for another (`Registry.readsReplies`).
-/

namespace Provenance

open Json

variable {ν : Type} {o : Outside ν} {w : World ν}

namespace Registry

variable {r : Registry} {text address : String} {chain : Nat} {c : Chain} {url : Url}

/-- In a registry that was read each chain has a node. -/
theorem exists_rpc (hparse : parse text = .ok r) (hget : r.get? chain = some c) :
    ∃ url others, c.rpc = url :: others := by
  rw [parse] at hparse
  split at hparse
  · cases hparse
  · next chains _ =>
    split at hparse
    · cases hparse
    · next hnone =>
      -- a chain without a node would have been found
      obtain rfl := Except.ok.inj hparse
      have hmem : (chain, c) ∈ chains := Dictionary.mem_of_get? hget
      have hrpc : c.rpc ≠ [] := by simpa using List.find?_eq_none.1 hnone _ hmem
      exact List.exists_cons_of_ne_nil hrpc

/-! ## What is asked -/

theorem post_apply {document : Value} {outcome : Except Http.TransferError Http.Reply} {outside' : ν}
    (h : Http.postJson url.toString document o w = (outcome, { w with outside := outside' })) :
    (post chain url document o w).1 = documentIn chain outcome ∧
      (post chain url document o w).2.outside = outside' := by
  have hrequest : (Http.postJson url.toString document).mapError (ChainError.request chain) o w
      = (outcome.mapError (.request chain), { w with outside := outside' }) := by
    rw [Session.mapError_apply, h]
  rw [post]
  cases outcome with
  | error error =>
    rw [Session.bind_of_error hrequest]
    exact ⟨rfl, rfl⟩
  | ok reply =>
    rw [Session.bind_of_ok hrequest, Session.log_bind_apply, documentIn]
    split <;> exact ⟨rfl, rfl⟩

/-- A document is sent to an endpoint, and something is read from the document that is replied. -/
def askAndRead (chain : Nat) (url : Url) (document : Value) (read : Value → Except ChainError String) :
    Session ν ChainError String := do
  let reply ← post chain url document
  Session.ofExcept (read reply)

theorem exists_posted (chain : Nat) (url : Url) (document : Value) (read : Value → Except ChainError String)
    (o : Outside ν) (w : World ν) :
    ∃ exchanges outcome,
      Http.Posted o url.toString document w.outside exchanges outcome
        (askAndRead chain url document read o w).2.outside ∧
      (askAndRead chain url document read o w).1 = (documentIn chain outcome).bind read := by
  obtain ⟨exchanges, outcome, outside', hposted, hrun⟩ := Http.exists_posted o url.toString document w
  obtain ⟨hresult, houtside⟩ := @post_apply _ _ _ chain _ _ _ _ hrun
  refine ⟨exchanges, outcome, ?_⟩
  rw [askAndRead, Session.bind_apply, ← hresult]
  revert houtside
  generalize post chain url document o w = run
  obtain ⟨result, w'⟩ := run
  rintro rfl
  cases result with
  | error error => exact ⟨hposted, rfl⟩
  | ok v => exact ⟨hposted, rfl⟩

theorem fetchDeployed_of_unregistered (h : r.get? chain = none) :
    r.fetchDeployed chain address o w = (.error (.unsupportedChain chain), w) := by
  rw [fetchDeployed, h]
  rfl

theorem fetchCreation_of_unregistered (h : r.get? chain = none) :
    r.fetchCreation chain address o w = (.error (.unsupportedChain chain), w) := by
  rw [fetchCreation, h]
  rfl

theorem fetchCreation_of_no_indexer (h : r.get? chain = some c) (hnone : c.contractFetchAddress = none) :
    r.fetchCreation chain address o w = (.error (.noCreationEndpoint chain), w) := by
  rw [fetchCreation, h]
  dsimp only
  rw [hnone]
  rfl

/-- A number is drawn and the request is logged before the node is asked. -/
theorem fetchDeployed_eq (h : r.get? chain = some c) {others : List Url} (hrpc : c.rpc = url :: others) :
    r.fetchDeployed chain address o w
      = askAndRead chain url (codeRequest address ((o.draw idBound w.outside).1 + 1)) (codeOf chain) o
        (World.logged { w with outside := (o.draw idBound w.outside).2 } [⟨.debug, Log.Part.chain.target,
          .shown "Sending RPC request", [("url", .shown url.toString), ("method", .text codeMethod)]⟩]) := by
  have hurl : (r.get? chain).bind Chain.rpcUrl? = some url := by
    rw [h, Option.bind_some, Chain.rpcUrl?, hrpc]
    rfl
  have hdraw : (Session.draw idBound : Session ν ChainError Nat) o w
      = (.ok (o.draw idBound w.outside).1, { w with outside := (o.draw idBound w.outside).2 }) := rfl
  rw [fetchDeployed, hurl]
  dsimp only
  rw [Session.bind_of_ok hdraw, Session.log_bind_apply, askAndRead]

theorem fetchCreation_eq (h : r.get? chain = some c) (hurl : c.contractFetchAddress = some url) :
    r.fetchCreation chain address o w
      = askAndRead chain url (creationRequest address) (creationOf chain) o
        (w.logged [⟨.debug, Log.Part.chain.target, .shown "Fetching creation bytecode from indexer",
          [("url", .shown url.toString)]⟩]) := by
  rw [fetchCreation, h]
  dsimp only
  rw [hurl]
  dsimp only
  rw [Session.log_bind_apply, askAndRead]

theorem exists_posted_fetchDeployed (h : r.get? chain = some c) {others : List Url}
    (hrpc : c.rpc = url :: others) :
    ∃ exchanges outcome,
      Http.Posted o url.toString (codeRequest address ((o.draw idBound w.outside).1 + 1))
        (o.draw idBound w.outside).2 exchanges outcome (r.fetchDeployed chain address o w).2.outside ∧
      ∀ result, (r.fetchDeployed chain address o w).1 = result ↔
        Asked (TellsCode chain) chain outcome result := by
  rw [fetchDeployed_eq h hrpc]
  obtain ⟨exchanges, outcome, hposted, hresult⟩ := exists_posted chain url
    (codeRequest address ((o.draw idBound w.outside).1 + 1)) (codeOf chain) o
    (World.logged { w with outside := (o.draw idBound w.outside).2 } [⟨.debug, Log.Part.chain.target,
      .shown "Sending RPC request", [("url", .shown url.toString), ("method", .text codeMethod)]⟩])
  refine ⟨exchanges, outcome, hposted, fun result => ?_⟩
  rw [asked_iff fun v result => @tellsCode_iff chain v result, hresult]
  exact eq_comm

theorem exists_posted_fetchCreation (h : r.get? chain = some c) (hurl : c.contractFetchAddress = some url) :
    ∃ exchanges outcome,
      Http.Posted o url.toString (creationRequest address) w.outside exchanges outcome
        (r.fetchCreation chain address o w).2.outside ∧
      ∀ result, (r.fetchCreation chain address o w).1 = result ↔
        Asked (TellsInput chain) chain outcome result := by
  rw [fetchCreation_eq h hurl]
  obtain ⟨exchanges, outcome, hposted, hresult⟩ := exists_posted chain url (creationRequest address)
    (creationOf chain) o (w.logged [⟨.debug, Log.Part.chain.target,
      .shown "Fetching creation bytecode from indexer", [("url", .shown url.toString)]⟩])
  refine ⟨exchanges, outcome, hposted, fun result => ?_⟩
  rw [asked_iff fun v result => @tellsInput_iff chain v result, hresult]
  exact eq_comm

/-! ## What is told -/

/-- The first node of a chain is asked for code before any other place, under a number that is drawn. What is told
is what comes of it: a code exactly if an object without an error has one. -/
def AsksNode (r : Registry) (o : Outside ν) (w : World ν) (chain : Nat) (address : String) (c : Chain) : Prop :=
  ∃ url others, c.rpc = url :: others ∧ ∃ exchanges outcome,
    Http.Posted o url.toString (codeRequest address ((o.draw idBound w.outside).1 + 1))
      (o.draw idBound w.outside).2 exchanges outcome (r.fetchDeployed chain address o w).2.outside ∧
    (∀ target, Http.target url.toString = .ok target → ∃ reply later, exchanges =
      (Http.documentRequest target (codeRequest address ((o.draw idBound w.outside).1 + 1)), reply) :: later) ∧
    (∀ result, (r.fetchDeployed chain address o w).1 = result ↔
      Asked (TellsCode chain) chain outcome result) ∧
    ∀ code, (r.fetchDeployed chain address o w).1 = .ok code ↔
      ∃ reply members, outcome = .ok reply ∧ reply.IsSuccessful ∧
        reply.json Decoder.value = .ok (.object members) ∧
        (Dictionary.get? "error" members = none ∨ Dictionary.get? "error" members = some .null) ∧
        Dictionary.get? "result" members = some (.string code)

/-- The indexer of a chain is asked for an input, and what is told is what comes of it: an input only if the
document is a reply of an indexer without an error code. -/
def AsksIndexer (r : Registry) (o : Outside ν) (w : World ν) (chain : Nat) (address : String) (url : Url) :
    Prop :=
  ∃ exchanges outcome,
    Http.Posted o url.toString (creationRequest address) w.outside exchanges outcome
      (r.fetchCreation chain address o w).2.outside ∧
    (∀ result, (r.fetchCreation chain address o w).1 = result ↔
      Asked (TellsInput chain) chain outcome result) ∧
    ∀ input, (r.fetchCreation chain address o w).1 = .ok input →
      ∃ reply document answer, outcome = .ok reply ∧ reply.IsSuccessful ∧
        reply.json Decoder.value = .ok document ∧
        decodeValue IndexerReply.decoder document = .ok answer ∧ answer.code = 0 ∧
        (document.part? "code" 0 = none ∨ document.part? "code" 0 = some (.integer 0)) ∧
        input = answer.creationCode.getD "" ∧ IndexerReply.Tells document input

/-- What the endpoints of a registry are asked about a contract, and what is told of their replies. -/
structure ReadsReplies (r : Registry) (o : Outside ν) (w : World ν) (chain : Nat) (address : String) : Prop where
  deployed_unsupported :
    (r.fetchDeployed chain address o w).1 = .error (.unsupportedChain chain) ↔ r.get? chain = none
  /-- About a chain that is not registered nothing is asked: all is as before, and so is whatever there is outside. -/
  deployed_unasked : r.get? chain = none → (r.fetchDeployed chain address o w).2 = w
  creation_unsupported :
    (r.fetchCreation chain address o w).1 = .error (.unsupportedChain chain) ↔ r.get? chain = none
  creation_unasked : r.get? chain = none → (r.fetchCreation chain address o w).2 = w
  noCreationEndpoint :
    (r.fetchCreation chain address o w).1 = .error (.noCreationEndpoint chain) ↔
      ∃ c, r.get? chain = some c ∧ c.contractFetchAddress = none
  noCreationEndpoint_unasked :
    (r.fetchCreation chain address o w).1 = .error (.noCreationEndpoint chain) →
      (r.fetchCreation chain address o w).2 = w
  deployed : ∀ c, r.get? chain = some c → r.AsksNode o w chain address c
  creation : ∀ c url, r.get? chain = some c → c.contractFetchAddress = some url →
    r.AsksIndexer o w chain address url

theorem asksNode_of_registered (hparse : parse text = .ok r) (hget : r.get? chain = some c) :
    r.AsksNode o w chain address c := by
  obtain ⟨url, others, hrpc⟩ := exists_rpc hparse hget
  obtain ⟨exchanges, outcome, hposted, hasked⟩ :=
    @exists_posted_fetchDeployed _ o w r address chain c url hget others hrpc
  refine ⟨url, others, hrpc, exchanges, outcome, hposted, fun _ => hposted.exists_cons, hasked, fun code => ?_⟩
  rw [hasked, asked_ok_iff]
  constructor
  · intro htold
    obtain ⟨reply, v, houtcome, status, body, tells⟩ := htold
    obtain ⟨members, rfl, htells⟩ := tellsCode_ok_iff.1 tells
    exact ⟨reply, members, houtcome, status, body, htells⟩
  · intro htold
    obtain ⟨reply, members, houtcome, status, body, htells⟩ := htold
    exact ⟨reply, .object members, houtcome, status, body, tellsCode_ok_iff.2 ⟨members, rfl, htells⟩⟩

theorem asksIndexer_of_registered (hget : r.get? chain = some c) (hurl : c.contractFetchAddress = some url) :
    r.AsksIndexer o w chain address url := by
  obtain ⟨exchanges, outcome, hposted, hasked⟩ :=
    @exists_posted_fetchCreation _ o w r address chain c url hget hurl
  refine ⟨exchanges, outcome, hposted, hasked, fun input hrun => ?_⟩
  obtain ⟨reply, document, houtcome, status, body, tells⟩ := asked_ok_iff.1 ((hasked _).1 hrun)
  obtain ⟨hcode, htells⟩ := tells_of_tellsInput (isRead_of_json body) tells
  cases tells with
  | @input answer read code =>
    exact ⟨reply, document, answer, houtcome, status, body, read, code, hcode, rfl, htells⟩

theorem fetchDeployed_unsupported_iff (hparse : parse text = .ok r) :
    (r.fetchDeployed chain address o w).1 = .error (.unsupportedChain chain) ↔ r.get? chain = none := by
  constructor
  · intro hrun
    cases hget : r.get? chain with
    | none => rfl
    | some c =>
      -- what is told of a node's reply is another error
      obtain ⟨url, others, -, exchanges, outcome, -, -, hasked, -⟩ :=
        @asksNode_of_registered _ o w r text address chain c hparse hget
      rcases error_of_asked ((hasked _).1 hrun) with ⟨_, h⟩ | ⟨_, h⟩ | ⟨_, h⟩ <;> cases h
  · intro hget
    rw [fetchDeployed_of_unregistered hget]

theorem fetchCreation_ne_of_indexer {error : ChainError} (hget : r.get? chain = some c)
    (hurl : c.contractFetchAddress = some url)
    (herror : error = .unsupportedChain chain ∨ error = .noCreationEndpoint chain) :
    (r.fetchCreation chain address o w).1 ≠ .error error := by
  intro hrun
  obtain ⟨exchanges, outcome, -, hasked, -⟩ := @asksIndexer_of_registered _ o w r address chain c url hget hurl
  rcases herror with rfl | rfl
  · rcases error_of_asked ((hasked _).1 hrun) with ⟨_, h⟩ | ⟨_, h⟩ | ⟨_, h⟩ <;> cases h
  · rcases error_of_asked ((hasked _).1 hrun) with ⟨_, h⟩ | ⟨_, h⟩ | ⟨_, h⟩ <;> cases h

theorem fetchCreation_unsupported_iff :
    (r.fetchCreation chain address o w).1 = .error (.unsupportedChain chain) ↔ r.get? chain = none := by
  constructor
  · intro hrun
    cases hget : r.get? chain with
    | none => rfl
    | some c =>
      cases hurl : c.contractFetchAddress with
      | none =>
        rw [fetchCreation_of_no_indexer hget hurl] at hrun
        cases hrun
      | some url => exact absurd hrun (fetchCreation_ne_of_indexer hget hurl (.inl rfl))
  · intro hget
    rw [fetchCreation_of_unregistered hget]

theorem fetchCreation_noEndpoint_iff :
    (r.fetchCreation chain address o w).1 = .error (.noCreationEndpoint chain) ↔
      ∃ c, r.get? chain = some c ∧ c.contractFetchAddress = none := by
  constructor
  · intro hrun
    cases hget : r.get? chain with
    | none =>
      rw [fetchCreation_of_unregistered hget] at hrun
      cases hrun
    | some c =>
      cases hurl : c.contractFetchAddress with
      | none => exact ⟨c, rfl, hurl⟩
      | some url => exact absurd hrun (fetchCreation_ne_of_indexer hget hurl (.inr rfl))
  · intro hnone
    obtain ⟨c, hget, hurl⟩ := hnone
    rw [fetchCreation_of_no_indexer hget hurl]

/-- What is noted as a question for deployed code is one: the document that asks for it is posted to the first node of
the chain, unless this is not registered. -/
theorem askDeployed_posted (hparse : parse text = .ok r) (o : Outside ν) (w : World ν) (chain : Nat)
    (address : String) :
    (r.client.askDeployed chain address o w).2.effects = w.effects ++ [.deployedCode chain address] ∧
      (r.get? chain = none ∧ (r.client.askDeployed chain address o w).2.outside = w.outside ∨
        ∃ c url others exchanges outcome, r.get? chain = some c ∧ c.rpc = url :: others ∧
          Http.Posted o url.toString (codeRequest address ((o.draw idBound w.outside).1 + 1))
            (o.draw idBound w.outside).2 exchanges outcome (r.client.askDeployed chain address o w).2.outside) := by
  have houtside : (r.client.askDeployed chain address o w).2.outside
      = (r.fetchDeployed chain address o
          { w with effects := w.effects ++ [.deployedCode chain address] }).2.outside := rfl
  refine ⟨rfl, ?_⟩
  rw [houtside]
  cases hget : r.get? chain with
  | none => exact .inl ⟨rfl, by rw [fetchDeployed_of_unregistered hget]⟩
  | some c =>
    obtain ⟨url, others, hrpc⟩ := exists_rpc hparse hget
    obtain ⟨exchanges, outcome, hposted, -⟩ := @exists_posted_fetchDeployed ν o
      { w with effects := w.effects ++ [.deployedCode chain address] } r address chain c url hget others hrpc
    exact .inr ⟨c, url, others, exchanges, outcome, rfl, hrpc, hposted⟩

/-- What is noted as a question for an input is one: the document that asks for it is posted to the indexer of the
chain, unless there is none. -/
theorem askCreation_posted (r : Registry) (o : Outside ν) (w : World ν) (chain : Nat) (address : String) :
    (r.client.askCreation chain address o w).2.effects = w.effects ++ [.creationCode chain address] ∧
      ((r.get? chain).bind Chain.contractFetchAddress = none ∧
          (r.client.askCreation chain address o w).2.outside = w.outside ∨
        ∃ c url exchanges outcome, r.get? chain = some c ∧ c.contractFetchAddress = some url ∧
          Http.Posted o url.toString (creationRequest address) w.outside exchanges outcome
            (r.client.askCreation chain address o w).2.outside) := by
  have houtside : (r.client.askCreation chain address o w).2.outside
      = (r.fetchCreation chain address o
          { w with effects := w.effects ++ [.creationCode chain address] }).2.outside := rfl
  refine ⟨rfl, ?_⟩
  rw [houtside]
  cases hget : r.get? chain with
  | none => exact .inl ⟨rfl, by rw [fetchCreation_of_unregistered hget]⟩
  | some c =>
    cases hurl : c.contractFetchAddress with
    | none => exact .inl ⟨hurl, by rw [fetchCreation_of_no_indexer hget hurl]⟩
    | some url =>
      obtain ⟨exchanges, outcome, hposted, -⟩ := @exists_posted_fetchCreation ν o
        { w with effects := w.effects ++ [.creationCode chain address] } r address chain c url hget hurl
      exact .inr ⟨c, url, exchanges, outcome, rfl, hurl, hposted⟩

/-- About chains that are not registered nothing is asked. For all others the replies of their endpoints are read
as what they are. -/
theorem readsReplies (hparse : parse text = .ok r) (o : Outside ν) (w : World ν) (chain : Nat)
    (address : String) : r.ReadsReplies o w chain address where
  deployed_unsupported := fetchDeployed_unsupported_iff hparse
  deployed_unasked hget := by rw [fetchDeployed_of_unregistered hget]
  creation_unsupported := fetchCreation_unsupported_iff
  creation_unasked hget := by rw [fetchCreation_of_unregistered hget]
  noCreationEndpoint := fetchCreation_noEndpoint_iff
  noCreationEndpoint_unasked hrun := by
    obtain ⟨c, hget, hurl⟩ := fetchCreation_noEndpoint_iff.1 hrun
    rw [fetchCreation_of_no_indexer hget hurl]
  deployed _ hget := asksNode_of_registered hparse hget
  creation _ _ hget hurl := asksIndexer_of_registered hget hurl

/-- A reply with a result and an error that is `null` tells the result as the code. -/
theorem readsReplies_of_result :
    let text := "\x7b\"1\":\x7b\"rpc\":[\"http://node\"]\x7d\x7d"
    let body := Text.encode "\x7b\"error\":null,\"result\":\"0x6001\"\x7d"
    let o : Outside Unit :=
      { Outside.idle with exchange := fun _ outside => (some ⟨200, none, body, true⟩, outside) }
    ∃ r, parse text = .ok r ∧ r.ReadsReplies o .blank 1 "0x32Be" ∧
      (r.fetchDeployed 1 "0x32Be" o .blank).1 = .ok "0x6001" := by
  intro text body o
  have htold : (match parse text with
      | .ok r => decide ((r.fetchDeployed 1 "0x32Be" o .blank).1 = .ok "0x6001")
      | .error _ => false) = true := by decide +kernel
  split at htold
  · next r hparse => exact ⟨r, hparse, readsReplies hparse o .blank 1 "0x32Be", of_decide_eq_true htold⟩
  · cases htold

end Registry

end Provenance
