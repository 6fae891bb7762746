import Provenance.Chain.Endpoints
import Provenance.Proofs.Chain.Indexer

/-!
# What the replies of endpoints tell

What came of asking an endpoint is judged in the order of the cases of `Asked`: there may be no reply, a reply
without success, one without a document, and else a document. That of a node tells a code or an error by `TellsCode`,
that of an indexer tells an input or an error by `TellsInput`.
-/

namespace Provenance

open Json

/-- A reply of success, which has a status of the two hundreds. -/
def Http.Reply.IsSuccessful (reply : Http.Reply) : Prop := 200 ≤ reply.status ∧ reply.status < 300

/-! ## Documents of replies -/

/-- The document in what came of asking an endpoint, or why there is none. -/
def documentIn (chain : Nat) : Except Http.TransferError Http.Reply → Except ChainError Value
  | .error error => .error (.request chain error)
  | .ok reply =>
    if Http.isSuccess reply.status then (reply.json Decoder.value).mapError (.request chain)
    else .error (.status chain reply.status)

section
variable {chain : Nat} {outcome : Except Http.TransferError Http.Reply} {reply : Http.Reply} {v : Value}

theorem isSuccess_iff : Http.isSuccess reply.status = true ↔ reply.IsSuccessful := by
  rw [Http.isSuccess, Http.Reply.IsSuccessful, Bool.and_eq_true, decide_eq_true_eq, decide_eq_true_eq]

theorem documentIn_of_successful (h : reply.IsSuccessful) :
    documentIn chain (.ok reply) = (reply.json Decoder.value).mapError (.request chain) := by
  rw [documentIn, if_pos (isSuccess_iff.2 h)]

theorem documentIn_of_not_successful (h : ¬reply.IsSuccessful) :
    documentIn chain (.ok reply) = .error (.status chain reply.status) := by
  rw [documentIn, if_neg (mt isSuccess_iff.1 h)]

/-- The document of a reply was read, so that the members of its objects are in order. -/
theorem isRead_of_json (h : reply.json Decoder.value = .ok v) : IsRead 0 v := by
  obtain ⟨content, -, hread⟩ := bind_eq_ok_iff.1 h
  dsimp only at hread
  split at hread
  · next document hdocument =>
    cases hread
    obtain ⟨a, ha, hend⟩ := bind_eq_ok_iff.1 hdocument
    split at hend
    · cases hend
      exact ⟨_, ha⟩
    · cases hend
  · cases hread

end

/-- What comes of asking an endpoint: of all cases the first that applies. What a document tells is given by a
relation. -/
inductive Asked (Tells : Value → Except ChainError String → Prop) (chain : Nat) :
    Except Http.TransferError Http.Reply → Except ChainError String → Prop
  | noReply {error} : Asked Tells chain (.error error) (.error (.request chain error))
  | refused {reply} (status : ¬reply.IsSuccessful) :
    Asked Tells chain (.ok reply) (.error (.status chain reply.status))
  | noDocument {reply error} (status : reply.IsSuccessful)
    (body : reply.json Decoder.value = .error error) :
    Asked Tells chain (.ok reply) (.error (.request chain error))
  | document {reply v result} (status : reply.IsSuccessful) (body : reply.json Decoder.value = .ok v)
    (tells : Tells v result) : Asked Tells chain (.ok reply) result

section
variable {Tells : Value → Except ChainError String → Prop} {chain : Nat}
  {outcome : Except Http.TransferError Http.Reply} {result : Except ChainError String}

/-- What comes of asking an endpoint follows from what came of the request and from what documents tell. -/
theorem asked_iff {read : Value → Except ChainError String}
    (h : ∀ v result, Tells v result ↔ result = read v) :
    Asked Tells chain outcome result ↔ result = (documentIn chain outcome).bind read := by
  constructor
  · intro hasked
    cases hasked with
    | noReply => rfl
    | refused status =>
      rw [documentIn_of_not_successful status]
      rfl
    | noDocument status body =>
      rw [documentIn_of_successful status, body]
      rfl
    | document status body tells =>
      rw [documentIn_of_successful status, body, (h _ _).1 tells]
      rfl
  · rintro rfl
    cases outcome with
    | error error => exact .noReply
    | ok reply =>
      -- the body is not looked at unless the status is that of a success
      by_cases status : reply.IsSuccessful
      · rw [documentIn_of_successful status]
        cases body : reply.json Decoder.value with
        | error error => exact .noDocument status body
        | ok v => exact .document status body ((h _ _).2 rfl)
      · rw [documentIn_of_not_successful status]
        exact .refused status

/-- Something is told only by a document in a reply of success. -/
theorem asked_ok_iff {s : String} :
    Asked Tells chain outcome (.ok s) ↔
      ∃ reply v, outcome = .ok reply ∧ reply.IsSuccessful ∧ reply.json Decoder.value = .ok v ∧
        Tells v (.ok s) := by
  constructor
  · intro h
    cases h with
    | @document reply v _ status body tells => exact ⟨reply, v, rfl, status, body, tells⟩
  · intro h
    obtain ⟨reply, v, rfl, status, body, tells⟩ := h
    exact .document status body tells

/-- An error is one of the request, one of the status, or one that a document tells. -/
theorem error_of_asked {error : ChainError} (h : Asked Tells chain outcome (.error error)) :
    (∃ e, error = .request chain e) ∨ (∃ status, error = .status chain status) ∨
      ∃ v, Tells v (.error error) := by
  cases h with
  | noReply | noDocument => exact .inl ⟨_, rfl⟩
  | refused => exact .inr (.inl ⟨_, rfl⟩)
  | document _ _ tells => exact .inr (.inr ⟨_, tells⟩)

end

/-! ## Codes -/

/-- What the document of a node tells: the error that it reports, if this is not `null`, and else a code. -/
inductive TellsCode (chain : Nat) (v : Value) : Except ChainError String → Prop
  | error {error message} (there : v.get? "error" = some error) (notNull : error ≠ .null)
    (told : error.get? "message" = some (.string message)) : TellsCode chain v (.error (.rpc chain message))
  /-- An error without a message of its own is told as a whole. -/
  | wholeError {error} (there : v.get? "error" = some error) (notNull : error ≠ .null)
    (untold : ∀ message, error.get? "message" ≠ some (.string message)) :
    TellsCode chain v (.error (.rpc chain error.encode))
  | noCode (quiet : v.get? "error" = none ∨ v.get? "error" = some .null)
    (untold : ∀ code, v.get? "result" ≠ some (.string code)) :
    TellsCode chain v (.error (.parse chain "missing result field in eth_getCode response"))
  | code {code} (quiet : v.get? "error" = none ∨ v.get? "error" = some .null)
    (told : v.get? "result" = some (.string code)) : TellsCode chain v (.ok code)

section
variable {chain : Nat} {v error : Value} {result : Except ChainError String}

theorem bind_string?_eq_some_iff {value : Option Value} {s : String} :
    value.bind Value.string? = some s ↔ value = some (.string s) := by
  cases value with
  | none => exact ⟨nofun, nofun⟩
  | some w => cases w <;> simp [Value.string?]

theorem bind_string?_eq_none_iff {value : Option Value} :
    value.bind Value.string? = none ↔ ∀ s, value ≠ some (.string s) := by
  rw [Option.eq_none_iff_forall_ne_some]
  exact forall_congr' fun s => not_congr bind_string?_eq_some_iff

theorem rpcMessage_of_told {message : String} (h : error.get? "message" = some (.string message)) :
    rpcMessage error = message := by
  rw [rpcMessage, bind_string?_eq_some_iff.2 h]

theorem rpcMessage_of_untold (h : ∀ message, error.get? "message" ≠ some (.string message)) :
    rpcMessage error = error.encode := by
  rw [rpcMessage, bind_string?_eq_none_iff.2 h]

theorem codeOf_of_error (there : v.get? "error" = some error) (notNull : error ≠ .null) :
    codeOf chain v = .error (.rpc chain (rpcMessage error)) := by
  have hnull : error.isNull = false := by
    cases error with
    | null => exact absurd rfl notNull
    | _ => rfl
  rw [codeOf, there, Option.filter_some, if_pos (by rw [hnull]; rfl)]

theorem codeOf_of_quiet (quiet : v.get? "error" = none ∨ v.get? "error" = some .null) :
    codeOf chain v = match (v.get? "result").bind Value.string? with
      | some code => .ok code
      | none => .error (.parse chain "missing result field in eth_getCode response") := by
  rcases quiet with h | h
  · rw [codeOf, h]
    rfl
  · rw [codeOf, h]
    rfl

theorem tellsCode_iff : TellsCode chain v result ↔ result = codeOf chain v := by
  constructor
  · intro h
    cases h with
    | error there notNull told => rw [codeOf_of_error there notNull, rpcMessage_of_told told]
    | wholeError there notNull untold => rw [codeOf_of_error there notNull, rpcMessage_of_untold untold]
    | noCode quiet untold => rw [codeOf_of_quiet quiet, bind_string?_eq_none_iff.2 untold]
    | code quiet told => rw [codeOf_of_quiet quiet, bind_string?_eq_some_iff.2 told]
  · rintro rfl
    -- whether an error is reported decides first, and then whether there is a text where one is looked for
    by_cases quiet : v.get? "error" = none ∨ v.get? "error" = some .null
    · rw [codeOf_of_quiet quiet]
      cases htold : (v.get? "result").bind Value.string? with
      | none => exact .noCode quiet (bind_string?_eq_none_iff.1 htold)
      | some code => exact .code quiet (bind_string?_eq_some_iff.1 htold)
    · obtain ⟨hthere, hnull⟩ := not_or.1 quiet
      obtain ⟨error, there⟩ := Option.ne_none_iff_exists'.1 hthere
      have notNull : error ≠ .null := fun h => hnull (h ▸ there)
      rw [codeOf_of_error there notNull]
      cases htold : (error.get? "message").bind Value.string? with
      | none =>
        have untold := bind_string?_eq_none_iff.1 htold
        exact rpcMessage_of_untold untold ▸ .wholeError there notNull untold
      | some message =>
        have told := bind_string?_eq_some_iff.1 htold
        exact rpcMessage_of_told told ▸ .error there notNull told

/-- A code is told only by an object that reports no error and has a text as its result. -/
theorem tellsCode_ok_iff {code : String} :
    TellsCode chain v (.ok code) ↔
      ∃ members, v = .object members ∧
        (Dictionary.get? "error" members = none ∨ Dictionary.get? "error" members = some .null) ∧
        Dictionary.get? "result" members = some (.string code) := by
  constructor
  · intro h
    cases h with
    | code quiet told =>
      cases v with
      | object members => exact ⟨members, rfl, quiet, told⟩
      | _ => cases told
  · intro h
    obtain ⟨members, rfl, quiet, told⟩ := h
    exact .code quiet told

end

/-! ## Inputs -/

/-- What the document of an indexer tells: that it is none, the error that its code stands for, or an input. -/
inductive TellsInput (chain : Nat) (v : Value) : Except ChainError String → Prop
  | noReply {message} (read : decodeValue IndexerReply.decoder v = .error message) :
    TellsInput chain v (.error (.parse chain message))
  | error {reply} (read : decodeValue IndexerReply.decoder v = .ok reply) (code : reply.code ≠ 0) :
    TellsInput chain v (.error (.indexer chain reply.message))
  | input {reply} (read : decodeValue IndexerReply.decoder v = .ok reply) (code : reply.code = 0) :
    TellsInput chain v (.ok (reply.creationCode.getD ""))

section
variable {chain : Nat} {v : Value} {result : Except ChainError String}

theorem tellsInput_iff : TellsInput chain v result ↔ result = creationOf chain v := by
  constructor
  · intro h
    cases h with
    | noReply read => rw [creationOf, read]
    | error read code =>
      rw [creationOf, read]
      exact (if_neg code).symm
    | input read code =>
      rw [creationOf, read]
      exact (if_pos code).symm
  · rintro rfl
    cases read : decodeValue IndexerReply.decoder v with
    | error message =>
      rw [creationOf, read]
      exact .noReply read
    | ok reply =>
      rw [creationOf, read]
      dsimp only
      split
      · next code => exact .input read code
      · next code => exact .error read code

/-- An input is told only where the code is zero or left out, and it is the one that stands in the data, if there
is one. -/
theorem tells_of_tellsInput {input : String} (hv : IsRead 0 v) (h : TellsInput chain v (.ok input)) :
    (v.part? "code" 0 = none ∨ v.part? "code" 0 = some (.integer 0)) ∧ IndexerReply.Tells v input := by
  cases h with
  | input read code =>
    refine ⟨?_, IndexerReply.tells_creationCode hv read⟩
    obtain hcode | ⟨hnone, -⟩ := IndexerReply.part?_code hv read
    · exact .inr (code ▸ hcode)
    · exact .inl hnone

end

end Provenance
