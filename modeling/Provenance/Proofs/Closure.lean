import Provenance.Compiler.Recompile
import Provenance.Proofs.Session

/-!
# What passes on from parts

Most properties of sessions pass on from their parts (`Session.Closed`). If such a property holds of sending one
request, it holds of a request with all the redirections that are followed (`Session.Closed.follow`). If it holds
of logging, it holds of whatever only reports what was done (`Session.LogClosed`).
-/

namespace Provenance.Session

variable {ν ε : Type}

/-- A property of sessions that passes on from their parts. -/
structure Closed (P : ∀ {α : Type}, Session ν ε α → Prop) : Prop where
  pure : ∀ {α : Type} (a : α), P (pure a : Session ν ε α)
  fail : ∀ {α : Type} (error : ε), P (fail error : Session ν ε α)
  bind : ∀ {α β : Type} {session : Session ν ε α} {f : α → Session ν ε β},
    P session → (∀ a, P (f a)) → P (session >>= f)
  exchange : ∀ request, P (exchange request : Session ν ε _)

/-- A property of sessions that passes on from their parts and that logging has. -/
structure LogClosed (P : ∀ {α : Type}, Session ν ε α → Prop) : Prop extends Closed P where
  log : ∀ level part message fields, P (log level part message fields : Session ν ε Unit)

theorem Closed.ofExcept {P : ∀ {α : Type}, Session ν ε α → Prop} (h : Closed P) {α : Type}
    (result : Except ε α) : P (ofExcept result : Session ν ε α) := by
  cases result with
  | ok a => exact h.pure a
  | error e => exact h.fail e

/-! ## Requests -/

namespace Closed

variable {P : ∀ {α : Type}, Session ν Http.TransferError α → Prop}

theorem follow (h : Closed P) (left : Nat) (request : Http.Request) : P (Http.follow left request) := by
  -- the induction is on the redirections that are left
  induction left generalizing request with
  | zero =>
    unfold Http.follow
    refine h.bind (h.exchange request) fun reply => ?_
    split
    · exact h.fail _
    · split
      · exact h.pure _
      · exact h.fail _
  | succ left ih =>
    unfold Http.follow
    refine h.bind (h.exchange request) fun reply => ?_
    split
    · exact h.fail _
    · split
      · exact h.pure _
      · exact ih _

theorem send (h : Closed P) (method : Http.Method) (address : String) (headers : List (String × String))
    (body : Option Bytes) : P (Http.send method address headers body) :=
  h.bind (h.ofExcept _) fun _ => h.follow _ _

end Closed

/-! ## Reports -/

namespace LogClosed

theorem report {P : ∀ {α : Type}, Session ν ε α → Prop} (h : LogClosed P) (c : Cache) (version : String)
    (stage stage' : Cache.Stage) : P (c.report version stage stage' : Session ν ε Unit) := by
  unfold Cache.report
  split
  · exact h.log _ _ _ _
  · exact h.bind (h.log _ _ _ _) fun _ => h.log _ _ _ _
  · exact h.log _ _ _ _
  · exact h.pure ()

theorem choose {P : ∀ {α : Type}, Session ν CompilerError α → Prop} (h : LogClosed P)
    (output : CompilerOutput) (declared : Option Target) (tag : Option String) :
    P (Recompiler.choose output declared tag) := by
  unfold Recompiler.choose
  -- each of the two reports may be left out
  split
  · split
    · exact h.bind (h.log _ _ _ _) fun _ => h.bind (h.log _ _ _ _) fun _ => h.ofExcept _
    · exact h.bind (h.log _ _ _ _) fun _ => h.ofExcept _
  · split
    · exact h.bind (h.log _ _ _ _) fun _ => h.ofExcept _
    · exact h.ofExcept _

end LogClosed

end Provenance.Session
