import Provenance.Proofs.Bytecode.CreationInput
import Provenance.Proofs.Service.Documents

/-!
# Answers to verification requests

What the service answers is the document of a response, and it is true of what happened: the data of a match
are those of the comparison that was made, and every other answer carries none (`Service.answer_is_honest`).
-/

namespace Provenance

variable {ν ε : Type}

namespace Verifier

variable {v : Verifier ν} {o : Outside ν} {r : Request} {w w₃ : World ν} {task : Task} {code : String}
  {compilation : Compilation} {verdict : Bytecode.Verdict}

/-- A verification came to a verdict: for the task of its request the compiler was there, there was code on
the chain, the metadata was compiled, and in the world that was reached by then the compiled contract was
compared with the code. -/
inductive Judges (v : Verifier ν) (o : Outside ν) (r : Request) (w : World ν) :
    Task → String → Compilation → World ν → Bytecode.Verdict → Prop
  | intro {task span path w₁ code w₂ m compilation w₃ verdict w₄} (asked : r.task = .ok task)
    (provided : v.recompiler.cache.ensure task.version o { w with spans := span :: w.spans }
      = (.ok path, w₁))
    (fetched : v.fetchCode task o w₁ = (.ok code, w₂)) (read : Metadata.parse task.metadataText = .ok m)
    (compiled : v.compile m task.version o w₂ = (.ok compilation, w₃))
    (compared : Bytecode.compare v.client task.chain task.address code compilation.artifact o w₃
      = (.ok verdict, w₄)) :
    Judges v o r w task code compilation w₃ verdict

/-- A verification that runs to its end has come to a verdict, and this is its outcome. -/
theorem judges_of_verify {outcome : Outcome} (h : (v.verify r o w).1 = .ok outcome) :
    ∃ task code compilation w₃ verdict, v.Judges o r w task code compilation w₃ verdict ∧
      outcome = outcomeOf compilation verdict := by
  cases htask : r.task with
  | error e =>
    rw [verify_of_refused htask] at h
    cases h
  | ok task =>
    obtain ⟨span, hverify⟩ := @verify_of_task ν v task r htask o w
    rw [hverify] at h
    dsimp only at h
    have hperformance := performance v o task { w with spans := span :: w.spans }
    revert h hperformance
    generalize v.perform task o { w with spans := span :: w.spans } = run
    intro h hperformance
    cases hperformance with
    | finished provided fetched read compiled compared =>
      cases h
      exact ⟨task, _, _, _, _, .intro htask provided fetched read compiled compared, rfl⟩
    | _ => cases h

/-- What a verdict was told by a comparison. -/
theorem Judges.compared (h : v.Judges o r w task code compilation w₃ verdict) :
    (Bytecode.compare v.client task.chain task.address code compilation.artifact o w₃).1 = .ok verdict := by
  cases h with
  | intro _ _ _ _ _ compared => rw [compared]

/-- A status and a response are true of the verification of a request in a world. -/
structure Honest (v : Verifier ν) (o : Outside ν) (r : Request) (w : World ν) (status : Nat)
    (given : Response) : Prop where
  /-- It is served just when the verification runs to its end. -/
  served_iff : status = 200 ↔ ∃ outcome, (v.verify r o w).1 = .ok outcome
  /-- A match is what the comparison found, and its data are those of the compiled contract. -/
  matched : given.status ≠ .mismatch → status = 200 ∧ ∃ task code compilation w₃ verdict,
    v.Judges o r w task code compilation w₃ verdict ∧ given.status = verdict.status ∧
      given.abi = some compilation.artifact.abi ∧
      given.creationLength = some compilation.artifact.creation.utf8ByteSize ∧
      given.constructorArguments = verdict.arguments
  /-- Arguments belong to a perfect match; the creation code that was fetched is the compiled one, linked, and
  they follow it. -/
  arguments : ∀ text, given.constructorArguments = some text → given.status = .perfect ∧
    ∃ task code compilation w₃ verdict, v.Judges o r w task code compilation w₃ verdict ∧
      (Bytecode.compare v.client task.chain task.address code compilation.artifact o w₃).2.effects
        = w₃.effects ++ [.creationCode task.chain task.address] ∧
      ∃ input linked rest, Bytecode.told v.client task.chain task.address o (w₃.logged
          ((Bytecode.scan (Bytecode.normalize compilation.artifact.deployed)
            (Bytecode.normalize code)).1.map Bytecode.Resolved.event)) = .ok input ∧
        Bytecode.link (Bytecode.normalize compilation.artifact.creation) (Bytecode.normalize input)
          = .ok linked ∧
        rest ≠ [] ∧ Bytecode.normalize input = linked ++ rest ∧ text = String.ofList (Hex.mark ++ rest)
  /-- Every other answer says that there is no match, why, and nothing else. -/
  otherwise : status ≠ 200 ∨ given.status = .mismatch →
    given = ⟨.mismatch, given.message, none, none, none, none⟩

/-- No failure is served. -/
theorem statusOf_ne_served (kind : ErrorKind) : Answer.statusOf kind ≠ 200 := by
  cases kind <;> decide

/-- The outcome of a verdict that is no mismatch. -/
theorem outcomeOf_of_ne_mismatch (h : verdict.status ≠ .mismatch) :
    outcomeOf compilation verdict = .verified {
      status := verdict.status
      abi := compilation.artifact.abi
      creationLength := compilation.artifact.creation.utf8ByteSize
      reviveVersion := compilation.reviveVersion
      constructorArguments := verdict.arguments } := by
  unfold outcomeOf
  split
  · next hstatus => exact absurd hstatus h
  · rfl

/-- The answer to a verification is true of it. -/
theorem honest_ofResult (v : Verifier ν) (o : Outside ν) (r : Request) (w : World ν) :
    v.Honest o r w (Answer.ofResult (v.verify r o w).1).status (Answer.ofResult (v.verify r o w).1).body := by
  cases hresult : (v.verify r o w).1 with
  | error e =>
    refine ⟨⟨fun h => absurd h (statusOf_ne_served _), ?_⟩, fun h => absurd rfl h, nofun, fun _ => rfl⟩
    rintro ⟨outcome, houtcome⟩
    rw [hresult] at houtcome
    cases houtcome
  | ok outcome =>
    have hserved : (Answer.ofResult (.ok outcome)).status = 200 ↔
        ∃ outcome, (v.verify r o w).1 = .ok outcome := ⟨fun _ => ⟨outcome, hresult⟩, fun _ => rfl⟩
    obtain ⟨task, code, compilation, w₃, verdict, hjudges, rfl⟩ := judges_of_verify hresult
    -- a mismatch is served too, but like a failure it carries nothing
    by_cases hmismatch : verdict.status = .mismatch
    · have houtcome : outcomeOf compilation verdict = .mismatch := by rw [outcomeOf, hmismatch]
      rw [houtcome] at hserved ⊢
      exact ⟨hserved, fun h => absurd rfl h, nofun, fun _ => rfl⟩
    · rw [outcomeOf_of_ne_mismatch hmismatch] at hserved ⊢
      refine ⟨hserved, fun _ => ?_, fun text htext => ?_, fun h => ?_⟩
      · exact ⟨rfl, task, code, compilation, w₃, verdict, hjudges, rfl, rfl, rfl, rfl⟩
      · obtain ⟨hperfect, hcreation⟩ := Bytecode.compare_arguments hjudges.compared htext
        exact ⟨hperfect, task, code, compilation, w₃, verdict, hjudges, hcreation⟩
      · exact absurd h (by simp [Answer.ofResult, Answer.ofOutcome, Response.ofOutcome, hmismatch])

/-- The interface in the answer to a verification was read from the compiler's output. -/
theorem isRead_abi_ofResult (v : Verifier ν) (o : Outside ν) (r : Request) (w : World ν) :
    ∀ items ∈ (Answer.ofResult (v.verify r o w).1).body.abi, ∀ x ∈ items, Json.IsRead 5 x := by
  cases hresult : (v.verify r o w).1 with
  | error e => nofun
  | ok outcome =>
    obtain ⟨task, code, compilation, w₃, verdict, hjudges, rfl⟩ := judges_of_verify hresult
    have hread : ∀ x ∈ compilation.artifact.abi, Json.IsRead 5 x := by
      cases hjudges with
      | intro _ _ _ _ compiled _ =>
        obtain ⟨_, _, _, _, -, hread⟩ := exists_output (congrArg Prod.fst compiled)
        exact Recompiler.isRead_abi_of_compilationOf hread
    by_cases hmismatch : verdict.status = .mismatch
    · have houtcome : outcomeOf compilation verdict = .mismatch := by rw [outcomeOf, hmismatch]
      rw [houtcome]
      nofun
    · rw [outcomeOf_of_ne_mismatch hmismatch]
      rintro _ ⟨⟩
      exact hread

end Verifier

namespace Service

open Http

variable {o : Outside ν} {w : World ν} {s : Service} {i : Incoming}

/-- A request to verify is answered by the route for it. -/
theorem fst_answer (hmethod : i.method = "POST") (hpath : i.path = "/verify") (o : Outside ν)
    (w : World ν) :
    ((s.answer i : Session ν ε Outgoing) o w).1
      = ((s.answerVerify i : Session ν ε Answer) o w).1.map ofAnswer := by
  have hroute : Route.ofPath? i.path = some .verify := by rw [hpath]; rfl
  have hpost : Route.verify.methods.contains i.method = true := by rw [hmethod]; rfl
  have hhead : ¬ i.method = "HEAD" := by rw [hmethod]; decide
  have hfull : (s.answerInFull i : Session ν ε Outgoing)
      = s.answerVerify i >>= fun a => pure (ofAnswer a) := by
    rw [answerInFull, hroute]
    exact if_pos hpost
  rw [answer, hfull]
  simp only [if_neg hhead]
  rw [Session.bind_apply, Session.bind_apply]
  rcases (s.answerVerify i : Session ν ε Answer) o w with ⟨e | a, w'⟩ <;> rfl

/-- The route gives the request a number and a span. -/
theorem fst_answerVerify (s : Service) (i : Incoming) (o : Outside ν) (w : World ν) :
    ∃ span, ((s.answerVerify i : Session ν ε Answer) o w).1
      = ((s.verifyBody i : Session ν ε Answer) o { w with
          outside := (o.draw (Nat.pow 2 64) w.outside).2
          spans := span :: w.spans }).1 :=
  ⟨_, rfl⟩

/-- A body that is no request is rejected, and a request is verified. -/
theorem fst_verifyBody (s : Service) (i : Incoming) (o : Outside ν) (w : World ν) :
    ((s.verifyBody i : Session ν ε Answer) o w).1
      = .ok (match readRequest i.contentType i.body with
        | .error flaw => .ofRejection flaw.message
        | .ok r => .ofResult (s.verifier.verify r o w).1) := by
  unfold verifyBody
  cases readRequest i.contentType i.body with
  | error flaw => rfl
  | ok r =>
    have hreport : ∀ result (w : World ν), ((report result : Session ν ε Unit) o w).1 = .ok () := by
      intro result w
      cases result <;> rfl
    dsimp only
    rw [Session.fst_bind_of_ok Session.fst_attempt, Session.fst_bind_of_ok (hreport _ _)]
    rfl

/-- What the service sends in answer to a request to verify carries a response, and this is true: either the
body is no request, which is said without any data, or it is true of the verification of the request in the
body. The same holds for every other verifier. -/
theorem answer_is_honest (s : Service) (i : Incoming) (hmethod : i.method = "POST")
    (hpath : i.path = "/verify") (o : Outside ν) (w : World ν) :
    (∃ out given, ((s.answer i : Session ν ε Outgoing) o w).1 = .ok out ∧ out.Carries given ∧
      match readRequest i.contentType i.body with
      | .error flaw => out.status ≠ 200 ∧ given = ⟨.mismatch, flaw.message, none, none, none, none⟩
      | .ok r => ∃ span,
        s.verifier.Honest o r
          { w with outside := (o.draw (Nat.pow 2 64) w.outside).2, spans := span :: w.spans } out.status given) ∧
      ∀ (v : Verifier ν) (r : Request) (w : World ν), ∃ given,
        (ofAnswer (.ofResult (v.verify r o w).1)).Carries given ∧
          v.Honest o r w (ofAnswer (.ofResult (v.verify r o w).1)).status given := by
  refine ⟨?_, fun v r w => ⟨_, carries_ofAnswer (v.isRead_abi_ofResult o r w), v.honest_ofResult o r w⟩⟩
  obtain ⟨span, hbody⟩ := @fst_answerVerify ν ε s i o w
  rw [fst_verifyBody] at hbody
  have hanswer := @fst_answer ν ε s i hmethod hpath o w
  rw [hbody] at hanswer
  cases hread : readRequest i.contentType i.body with
  | error flaw =>
    rw [hread] at hanswer
    exact ⟨_, _, hanswer, carries_ofAnswer nofun, by simp [ofAnswer, Outgoing.ofContent, Answer.ofRejection], rfl⟩
  | ok r =>
    rw [hread] at hanswer
    exact ⟨_, _, hanswer, carries_ofAnswer (s.verifier.isRead_abi_ofResult o r _), span,
      s.verifier.honest_ofResult o r _⟩

/-- The address of a host. -/
private def hostUrl (name : String) : Url :=
  ⟨"http".toList, [], [], some (.name name.toList), none, .segments [[]], none, none⟩

/-- What a compiler writes of one contract. -/
private def contractOutput : Bytes := Text.encode
  ("\x7b\"contracts\":\x7b\"a\":\x7b\"A\":\x7b\"abi\":[],\"evm\":\x7b" ++
    "\"bytecode\":\x7b\"object\":\"aabb\"\x7d,\"deployedBytecode\":\x7b\"object\":\"6001\"\x7d" ++
    "\x7d\x7d\x7d\x7d\x7d")

/-- An outside with a compiler and a chain. The code there is another, but the contract was created with the
compiled code and an argument. -/
private def creator : Outside Unit where
  exchange request x :=
    (some ⟨200, none, Text.encode (
      if request.url = hostUrl "node" then "\x7b\"result\":\"0x6002\"\x7d"
      else "\x7b\"data\":\x7b\"creation_code\":\"0xaabb2a\"\x7d\x7d"), true⟩, x)
  run _ x := (.ended (.code 0) contractOutput [] none, x)
  draw _ x := (0, x)
  listen _ x := (.error .addressNotAvailable, x)

private def creatorService : Service :=
  ⟨"", 0, ⟨[(1, ⟨[hostUrl "node"], some (hostUrl "indexer")⟩)]⟩, ⟨⟨"/", "http://host/"⟩, .ofSeconds 1⟩⟩

private def posted (body : String) : Incoming :=
  ⟨"POST", "/verify", some "application/json", Text.encode body⟩

private def contractBody : String :=
  "\x7b\"address\":\"0x32Be343B94f860124DC4fEe278FDCBD38C102D88\",\"chain\":1," ++
    "\"compilerVersion\":\"0.8.26\",\"metadata\":\x7b\"sources\":\x7b\"a\":\x7b\"content\":\"c\"\x7d\x7d\x7d\x7d"

/-- The status of an answer, and what is read from its body. -/
private def told (body : String) : Option (Nat × Option (Status × String × Option String)) :=
  ((creatorService.answer (posted body) : Session Unit Empty Outgoing) creator .blank).1.toOption.map fun out =>
    (out.status, (Json.decodeText Response.decoder out.body).toOption.map fun given =>
      (given.status, given.message, given.constructorArguments))

private theorem exists_out_of_told {body : String} {status : Nat}
    {read : Option (Status × String × Option String)} (h : told body = some (status, read)) : ∃ out,
      ((creatorService.answer (posted body) : Session Unit Empty Outgoing) creator .blank).1 = .ok out ∧
        out.status = status ∧ (Json.decodeText Response.decoder out.body).toOption.map (fun given =>
          (given.status, given.message, given.constructorArguments)) = read := by
  unfold told at h
  revert h
  cases ((creatorService.answer (posted body) : Session Unit Empty Outgoing) creator .blank).1 with
  | error e => nofun
  | ok out =>
    rintro ⟨⟩
    exact ⟨out, rfl, rfl, rfl⟩

private theorem artifact_of_contractOutput {m : Metadata} {compilation : Compilation}
    (h : Recompiler.compilationOf m contractOutput = .ok compilation) :
    compilation.artifact.abi = [] ∧ compilation.artifact.creation = "aabb" := by
  have hall : (Json.decodeBytes CompilerOutput.decoder contractOutput).toOption.all (fun decoded =>
      decoded.contracts.all fun entry => entry.2.all fun contract =>
        contract.2.abi.isEmpty && contract.2.creation = "aabb") = true := by
    decide +kernel
  obtain ⟨decoded, hread, hchosen⟩ := Recompiler.compilationOf_eq_ok_iff.1 h
  obtain ⟨-, hartifact, -⟩ := CompilerOutput.compilation_eq_ok_iff.1 hchosen
  obtain ⟨contracts, hsource, hname⟩ := Option.bind_eq_some_iff.1 hartifact
  rw [hread] at hall
  have hcontracts := List.all_eq_true.1 hall _ (Dictionary.mem_of_get? hsource)
  simpa using List.all_eq_true.1 hcontracts _ (Dictionary.mem_of_get? hname)

private theorem read_of_match {r : Request} {w : World Unit} {out : Outgoing} {given : Response}
    (hcarries : out.Carries given) (hhonest : creatorService.verifier.Honest creator r w out.status given)
    (hmatch : given.status ≠ .mismatch) : given.abi = some [] ∧ given.creationLength = some 4 ∧
      Json.decodeText Response.decoder out.body = .ok given := by
  obtain ⟨-, task, code, compilation, w, verdict, hjudges, -, habi, hlength, -⟩ := hhonest.matched hmatch
  cases hjudges with
  | intro _ _ _ _ compiled _ =>
    obtain ⟨job, x, output, errors, hended, hcompiled⟩ := Verifier.exists_output (congrArg Prod.fst compiled)
    cases hended
    obtain ⟨hinterface, hcreation⟩ := artifact_of_contractOutput hcompiled
    rw [hinterface] at habi
    rw [hcreation] at hlength
    refine ⟨habi, hlength, hcarries.read (fun items hitems v hv => ?_) (fun n hn => ?_)⟩
    · cases habi.symm.trans hitems
      cases hv
    · cases hlength.symm.trans hn
      decide

/-- A perfect match with arguments is served with its data; a request that asks for nothing and a body that is
no document are told so. -/
theorem answer_is_honest_of_samples :
    (∀ body, (posted body).method = "POST" ∧ (posted body).path = "/verify") ∧
      (∃ out given,
        ((creatorService.answer (posted contractBody) : Session Unit Empty Outgoing) creator .blank).1 = .ok out ∧
          out.Carries given ∧ out.status = 200 ∧ given.status = .perfect ∧ given.abi = some [] ∧
          given.creationLength = some 4 ∧ given.constructorArguments = some "0x2a") ∧
      ∀ sample ∈ [
          ("\x7b\x7d", "invalid request: address, metadata and compilerVersion are required " ++
            "and chain must not be negative"),
          ("\x7b", "Failed to parse the request body as JSON: EOF while parsing an object at line 1 column 1")],
        ∃ out,
          ((creatorService.answer (posted sample.1) : Session Unit Empty Outgoing) creator .blank).1 = .ok out ∧
            out.status = 400 ∧ out.Carries ⟨.mismatch, sample.2, none, none, none, none⟩ := by
  have hpath : ∀ body, (posted body).path = "/verify" := by
    intro body
    show String.ofList ("/verify".toList.takeWhile fun c => c ≠ '?' && c ≠ '#') = "/verify"
    decide
  refine ⟨fun body => ⟨rfl, hpath body⟩, ?_, ?_⟩
  · have htold : told contractBody = some (200, some (.perfect, "ok", some "0x2a")) := by decide +kernel
    obtain ⟨out, hanswer, hserved, hdecoded⟩ := exists_out_of_told htold
    obtain ⟨⟨out', given, hanswer', hcarries, htrue⟩, -⟩ :=
      @answer_is_honest Unit Empty creatorService (posted contractBody) rfl (hpath _) creator .blank
    cases hanswer.symm.trans hanswer'
    cases hread : readRequest (posted contractBody).contentType (posted contractBody).body with
    | error flaw =>
      rw [hread] at htrue
      exact absurd hserved htrue.1
    | ok r =>
      rw [hread] at htrue
      obtain ⟨span, hhonest⟩ := htrue
      -- otherwise nothing but a message would be read from the body
      have hmatch : given.status ≠ .mismatch := by
        intro hmismatch
        rw [hhonest.otherwise (.inr hmismatch)] at hcarries
        rw [hcarries.read nofun nofun] at hdecoded
        cases hdecoded
      obtain ⟨habi, hlength, hgiven⟩ := read_of_match hcarries hhonest hmatch
      rw [hgiven] at hdecoded
      obtain ⟨hperfect, -, harguments⟩ := by simpa using hdecoded
      exact ⟨out, given, hanswer, hcarries, hserved, hperfect, habi, hlength, harguments⟩
  · have hrefused : ∀ body message, told body = some (400, some (.mismatch, message, none)) →
        ∃ out, ((creatorService.answer (posted body) : Session Unit Empty Outgoing) creator .blank).1 = .ok out ∧
          out.status = 400 ∧ out.Carries ⟨.mismatch, message, none, none, none, none⟩ := by
      intro body message htold
      obtain ⟨out, hanswer, hstatus, hdecoded⟩ := exists_out_of_told htold
      obtain ⟨⟨out', given, hanswer', hcarries, htrue⟩, -⟩ :=
        @answer_is_honest Unit Empty creatorService (posted body) rfl (hpath _) creator .blank
      cases hanswer.symm.trans hanswer'
      have hgiven : given = ⟨.mismatch, given.message, none, none, none, none⟩ := by
        cases hread : readRequest (posted body).contentType (posted body).body with
        | error flaw =>
          rw [hread] at htrue
          rw [htrue.2]
        | ok r =>
          rw [hread] at htrue
          obtain ⟨span, hhonest⟩ := htrue
          exact hhonest.otherwise (.inl (by rw [hstatus]; decide))
      rw [hgiven] at hcarries
      rw [hcarries.read nofun nofun] at hdecoded
      cases hdecoded
      exact ⟨out, hanswer, hstatus, hcarries⟩
    simp only [List.forall_mem_cons]
    refine ⟨hrefused _ _ ?_, hrefused _ _ ?_, by simp⟩
    all_goals decide +kernel

end Service

end Provenance
