import Provenance.Http.Client
import Provenance.Proofs.Session

/-!
# The course of a request

A request and the redirections after it, with what came back each time, and what came of it in the end
(`Http.Course`). Every request that is followed has such a course, and it is all that is done to the outside
(`Http.exists_course`). So it is with what is sent to an address given as text, for which nothing is asked if no
request can be made from the address (`Http.Sent`).
-/

namespace Provenance.Http

variable {ν : Type}

/-- How a request takes its course: what was sent and what came back, the first first, and what came of it. -/
inductive Course (o : Outside ν) : (left : Nat) → Request → ν → List (Request × Option Reply) →
    Except TransferError Reply → ν → Prop
  | broken {left request outside outside'} (sent : o.exchange request outside = (none, outside')) :
    Course o left request outside [(request, none)] (.error (.notSent request.url.toString)) outside'
  | replied {left request reply outside outside'}
    (sent : o.exchange request outside = (some reply, outside'))
    (final : redirected? request reply = none) :
    Course o left request outside [(request, some reply)] (.ok reply) outside'
  | givenUp {request reply next outside outside'}
    (sent : o.exchange request outside = (some reply, outside'))
    (redirected : redirected? request reply = some next) :
    Course o 0 request outside [(request, some reply)] (.error (.tooManyRedirects request.url.toString))
      outside'
  | redirected {left request reply next exchanges outcome outside outside' outside''}
    (sent : o.exchange request outside = (some reply, outside'))
    (redirected : redirected? request reply = some next)
    (rest : Course o left next outside' exchanges outcome outside'') :
    Course o (left + 1) request outside ((request, some reply) :: exchanges) outcome outside''

variable {o : Outside ν} {left : Nat} {request : Request} {exchanges : List (Request × Option Reply)}
  {outcome : Except TransferError Reply} {outside outside' : ν} {w : World ν}

/-- The request itself is sent first. -/
theorem Course.exists_cons (h : Course o left request outside exchanges outcome outside') :
    ∃ reply rest, exchanges = (request, reply) :: rest := by
  cases h with
  | broken | replied | givenUp | redirected => exact ⟨_, _, rfl⟩

/-! ## Following -/

section
variable {reply : Reply} {next : Request}

theorem exchange_apply {reply : Option Reply} (h : o.exchange request w.outside = (reply, outside')) :
    (Session.exchange request : Session ν TransferError _) o w = (.ok reply, { w with outside := outside' }) := by
  rw [Session.exchange, h]

theorem follow_of_none (h : o.exchange request w.outside = (none, outside')) :
    follow left request o w = (.error (.notSent request.url.toString), { w with outside := outside' }) := by
  rw [follow, Session.bind_of_ok (exchange_apply h)]
  rfl

theorem follow_of_final (h : o.exchange request w.outside = (some reply, outside'))
    (hfinal : redirected? request reply = none) :
    follow left request o w = (.ok reply, { w with outside := outside' }) := by
  rw [follow, Session.bind_of_ok (exchange_apply h)]
  dsimp only
  rw [hfinal]
  rfl

theorem follow_zero_of_redirected (h : o.exchange request w.outside = (some reply, outside'))
    (hnext : redirected? request reply = some next) :
    follow 0 request o w
      = (.error (.tooManyRedirects request.url.toString), { w with outside := outside' }) := by
  rw [follow, Session.bind_of_ok (exchange_apply h)]
  dsimp only
  rw [hnext]
  rfl

theorem follow_succ_of_redirected (h : o.exchange request w.outside = (some reply, outside'))
    (hnext : redirected? request reply = some next) :
    follow (left + 1) request o w = follow left next o { w with outside := outside' } := by
  rw [follow, Session.bind_of_ok (exchange_apply h)]
  dsimp only
  rw [hnext]

end

/-- What is followed has a course, which is all that is done to the world. -/
theorem exists_course (o : Outside ν) (left : Nat) (request : Request) (w : World ν) :
    ∃ exchanges outcome outside', Course o left request w.outside exchanges outcome outside' ∧
      follow left request o w = (outcome, { w with outside := outside' }) := by
  -- the induction is on the redirections that are left
  induction left generalizing request w with
  | zero =>
    rcases hsent : o.exchange request w.outside with ⟨_ | reply, outside'⟩
    · exact ⟨_, _, outside', .broken hsent, follow_of_none hsent⟩
    · cases hnext : redirected? request reply with
      | none => exact ⟨_, _, outside', .replied hsent hnext, follow_of_final hsent hnext⟩
      | some next => exact ⟨_, _, outside', .givenUp hsent hnext, follow_zero_of_redirected hsent hnext⟩
  | succ left ih =>
    rcases hsent : o.exchange request w.outside with ⟨_ | reply, outside'⟩
    · exact ⟨_, _, outside', .broken hsent, follow_of_none hsent⟩
    · cases hnext : redirected? request reply with
      | none => exact ⟨_, _, outside', .replied hsent hnext, follow_of_final hsent hnext⟩
      | some next =>
        obtain ⟨exchanges, outcome, outside'', hcourse, hrun⟩ := ih next { w with outside := outside' }
        exact ⟨_, outcome, outside'', .redirected hsent hnext hcourse,
          (follow_succ_of_redirected hsent hnext).trans hrun⟩

/-! ## Addresses -/

/-- How a request is sent to an address given as text: not at all, or as one that takes its course. -/
inductive Sent (o : Outside ν) (address : String) (request : Url → Request) (outside : ν) :
    List (Request × Option Reply) → Except TransferError Reply → ν → Prop
  | unsent {error} (noTarget : target address = .error error) :
    Sent o address request outside [] (.error error) outside
  | sent {url exchanges outcome outside'} (toTarget : target address = .ok url)
    (course : Course o maxRedirects (request url) outside exchanges outcome outside') :
    Sent o address request outside exchanges outcome outside'

/-- The request for its address is sent first. -/
theorem Sent.exists_cons {address : String} {request : Url → Request} {url : Url}
    (h : Sent o address request outside exchanges outcome outside') (htarget : target address = .ok url) :
    ∃ reply rest, exchanges = (request url, reply) :: rest := by
  cases h with
  | unsent noTarget =>
    rw [htarget] at noTarget
    cases noTarget
  | sent toTarget course =>
    obtain rfl := Except.ok.inj (htarget.symm.trans toTarget)
    exact course.exists_cons

theorem exists_sent (o : Outside ν) (method : Method) (address : String) (headers : List (String × String))
    (body : Option Bytes) (w : World ν) :
    ∃ exchanges outcome outside',
      Sent o address (⟨method, ·, headers, body⟩) w.outside exchanges outcome outside' ∧
        send method address headers body o w = (outcome, { w with outside := outside' }) := by
  rw [send]
  cases htarget : target address with
  | error error => exact ⟨[], .error error, w.outside, .unsent htarget, rfl⟩
  | ok url =>
    obtain ⟨exchanges, outcome, outside', hcourse, hrun⟩ :=
      exists_course o maxRedirects ⟨method, url, headers, body⟩ w
    exact ⟨exchanges, outcome, outside', .sent htarget hcourse, hrun⟩

/-- The request that sends a document to an address. -/
def documentRequest (url : Url) (document : Json.Value) : Request :=
  ⟨.post, url, [("content-type", "application/json"), ("accept", "*/*")], some (Text.encode document.encode)⟩

/-- How a document is sent to an address given as text. -/
abbrev Posted (o : Outside ν) (address : String) (document : Json.Value) (outside : ν)
    (exchanges : List (Request × Option Reply)) (outcome : Except TransferError Reply) (outside' : ν) : Prop :=
  Sent o address (documentRequest · document) outside exchanges outcome outside'

theorem exists_posted (o : Outside ν) (address : String) (document : Json.Value) (w : World ν) :
    ∃ exchanges outcome outside', Posted o address document w.outside exchanges outcome outside' ∧
      postJson address document o w = (outcome, { w with outside := outside' }) :=
  exists_sent o _ address _ _ w

end Provenance.Http
