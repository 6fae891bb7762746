import Provenance.Proofs.Closure
import Provenance.Proofs.Dictionary

/-!
# Spans

What a span keeps is what was recorded last under each name (`Log.Span.get?_start`, `Log.Span.get?_record`), in
order of name (`Log.Span.IsMade.isSorted`). A session that opens no
span of its own logs under the spans that it found (`Session.LogsUnder`), which is shown for what a compilation
is made of: all that a compilation logs, it logs in its own span (`Recompiler.logsUnder_compileWith`).
-/

namespace Provenance

namespace Log

namespace Span

variable {name key target : String} {level : Level} {fields : Fields} {value : Value} {s : Span}

theorem get?_record :
    Dictionary.get? key (s.record name value).fields
      = if key = name then some value.kept else Dictionary.get? key s.fields :=
  Dictionary.get?_insert

theorem isSorted_record (h : Dictionary.IsSorted s.fields) : Dictionary.IsSorted (s.record name value).fields :=
  Dictionary.isSorted_insert h

/-- A span begins with the dictionary of what is recorded when it is opened. -/
theorem fields_start :
    (start name level target fields).fields = Dictionary.ofList (fields.map fun f => (f.1, f.2.kept)) := by
  have aux : ∀ (fs : Fields) (s : Span),
      (fs.foldl (fun s f => s.record f.1 f.2) s).fields
        = (fs.map fun f => (f.1, f.2.kept)).foldl (fun d e => Dictionary.insert e.1 e.2 d) s.fields := by
    intro fs
    induction fs with
    | nil => exact fun _ => rfl
    | cons f fs ih => exact fun s => ih (s.record f.1 f.2)
  exact aux fields _

/-- A span keeps under a name what was recorded last under it. -/
theorem get?_start :
    Dictionary.get? key (start name level target fields).fields
      = (Dictionary.get? key fields.reverse).map Value.kept := by
  rw [fields_start, Dictionary.get?_ofList, ← List.map_reverse, Dictionary.get?_map]

theorem isSorted_start : Dictionary.IsSorted (start name level target fields).fields := by
  rw [fields_start]
  exact Dictionary.isSorted_ofList

/-- A span as it can be made: it is opened with some fields, and others may be recorded later. -/
inductive IsMade : Span → Prop
  | start (name : String) (level : Level) (target : String) (fields : Fields) :
    IsMade (start name level target fields)
  | record (s : Span) (name : String) (value : Value) (before : IsMade s) : IsMade (s.record name value)

/-- What is recorded in a span is kept as a dictionary. -/
theorem IsMade.isSorted (h : IsMade s) : Dictionary.IsSorted s.fields := by
  induction h with
  | start => exact isSorted_start
  | record s name value before ih => exact isSorted_record ih

end Span

end Log

variable {ν ε δ α β : Type} {o : Outside ν}

namespace Session

variable {P : List Log.Span → Prop} {session : Session ν ε α} {f : α → Session ν ε β}

/-- Where some property of the open spans holds, a session keeps it and only logs where it holds. -/
def LogsUnder (P : List Log.Span → Prop) (o : Outside ν) (session : Session ν ε α) : Prop :=
  ∀ w, P w.spans → P (session o w).2.spans ∧
    ∃ more, (session o w).2.log = w.log ++ more ∧ ∀ r ∈ more, P r.spans

namespace LogsUnder

/-- A session that leaves the spans and the log. -/
theorem of_silent (h : ∀ w, (session o w).2.spans = w.spans ∧ (session o w).2.log = w.log) :
    LogsUnder P o session := by
  intro w hw
  obtain ⟨hspans, hlog⟩ := h w
  exact ⟨hspans ▸ hw, [], by rw [hlog, List.append_nil], nofun⟩

theorem bind (h : LogsUnder P o session) (hf : ∀ a, LogsUnder P o (f a)) :
    LogsUnder P o (session >>= f) := by
  intro w hw
  have hfirst := h w hw
  rw [bind_apply]
  revert hfirst
  generalize session o w = r
  obtain ⟨result, w₁⟩ := r
  rintro ⟨hspans, more, hlog, hmore⟩
  cases result with
  | error e => exact ⟨hspans, more, hlog, hmore⟩
  | ok a =>
    obtain ⟨hspans', more', hlog', hmore'⟩ := hf a w₁ hspans
    refine ⟨hspans', more ++ more', ?_, ?_⟩
    · rw [hlog', hlog, List.append_assoc]
    · intro r hr
      rcases List.mem_append.1 hr with hr | hr
      · exact hmore r hr
      · exact hmore' r hr

theorem pure (a : α) : LogsUnder P o (pure a : Session ν ε α) := of_silent fun _ => ⟨rfl, rfl⟩

theorem fail (error : ε) : LogsUnder P o (fail error : Session ν ε α) := of_silent fun _ => ⟨rfl, rfl⟩

theorem ofExcept (result : Except ε α) : LogsUnder P o (ofExcept result : Session ν ε α) :=
  of_silent fun _ => ⟨rfl, rfl⟩

theorem exchange (request : Http.Request) : LogsUnder P o (exchange request : Session ν ε _) :=
  of_silent fun _ => ⟨rfl, rfl⟩

theorem attempt (h : LogsUnder P o session) : LogsUnder P o (session.attempt : Session ν δ _) := h

theorem mapError (h : LogsUnder P o session) (g : ε → δ) : LogsUnder P o (session.mapError g) := by
  intro w hw
  rw [mapError_apply]
  exact h w hw

theorem log (level : Log.Level) (part : Log.Part) (message : String) (fields : Log.Fields) :
    LogsUnder P o (log level part message fields : Session ν ε Unit) := by
  intro w hw
  refine ⟨hw, _, rfl, fun r hr => ?_⟩
  obtain rfl := List.mem_singleton.1 hr
  exact hw

theorem closed : LogClosed fun {_} (session : Session ν ε _) => LogsUnder P o session :=
  ⟨⟨pure, fail, bind, exchange⟩, log⟩

/-- Recording a field of the innermost span may change what holds of it. -/
theorem record {name : String} {value : Log.Value}
    (h : ∀ s rest, P (s :: rest) → P (s.record name value :: rest)) :
    LogsUnder P o (record name value : Session ν ε Unit) := by
  intro w hw
  refine ⟨?_, [], (List.append_nil _).symm, nofun⟩
  obtain ⟨outside, disk, mishaps, memory, effects, spans, log⟩ := w
  cases spans with
  | nil => exact hw
  | cons s rest => exact h s rest hw

theorem nextMishap : LogsUnder P o (nextMishap : Session ν ε _) := by
  refine of_silent fun w => ?_
  unfold Session.nextMishap
  split <;> exact ⟨rfl, rfl⟩

theorem world : LogsUnder P o (world : Session ν ε _) := of_silent fun _ => ⟨rfl, rfl⟩

theorem ask (question : Disk → Except IoFault α) : LogsUnder P o (ask question : Session ν IoFault α) :=
  nextMishap.bind fun _ => world.bind fun _ => ofExcept _

theorem run (program : String) (arguments : List String) (input : Bytes) (limit : Duration) :
    LogsUnder P o (run program arguments input limit : Session ν ε _) := by
  refine of_silent fun w => ?_
  unfold Session.run
  split
  · exact ⟨rfl, rfl⟩
  · exact ⟨rfl, rfl⟩
  · split <;> exact ⟨rfl, rfl⟩

end LogsUnder

end Session

open Session (LogsUnder)

variable {P : List Log.Span → Prop}

/-! ## Making sure of a compiler -/

namespace Cache

variable (c : Cache) (version : String)

theorem logsUnder_advance (stage : Stage) : LogsUnder P o (c.advance version stage : Session ν ε Stage) := by
  have hdownload : ∀ address, LogsUnder P o (download version address : Session ν ε _) := by
    refine fun address => .bind (.of_silent fun _ => ⟨rfl, rfl⟩) fun _ => .attempt ?_
    exact LogsUnder.closed.send _ _ _ _
  have hstep : LogsUnder P o (c.stepAloud version stage : Session ν ε Stage) := by
    have hreport : ∀ mishap, LogsUnder P o (do
        let w ← Session.world
        let stepped := step c version mishap stage ⟨w.memory, w.disk⟩
        Session.modify fun w => { w with memory := stepped.2.memory, disk := stepped.2.disk }
        report c version stage stepped.1
        return stepped.1 : Session ν ε Stage) := fun mishap =>
      LogsUnder.world.bind fun w => .bind (.of_silent fun _ => ⟨rfl, rfl⟩) fun _ =>
        (LogsUnder.closed.report c version stage _).bind fun _ => .pure _
    unfold stepAloud
    split
    · exact LogsUnder.nextMishap.bind hreport
    · exact hreport none
  unfold advance
  split
  · exact (hdownload _).bind fun reply => .pure _
  · exact hstep

theorem logsUnder_drive (steps : Nat) (stage : Stage) :
    LogsUnder P o (c.drive version steps stage : Session ν ε Stage) := by
  induction steps generalizing stage with
  | zero => exact .pure stage
  | succ steps ih => exact (logsUnder_advance c version stage).bind ih

theorem logsUnder_ensure : LogsUnder P o (c.ensure version : Session ν CompilerError String) := by
  refine (logsUnder_drive c version maxSteps .starting).bind fun stage => ?_
  split
  · exact .ofExcept _
  · exact .fail _

end Cache

/-! ## Compiling -/

theorem Backend.logsUnder_invocation (backend : Backend) (cache : Cache) (compiler : String) :
    LogsUnder P o (backend.invocation cache compiler : Session ν CompilerError Invocation) := by
  cases backend with
  | solc => exact .pure _
  | revive tag =>
    rw [invocation]
    dsimp only
    split
    · exact .fail _
    · refine ((LogsUnder.ask _).mapError _).bind fun isInstalled => ?_
      split
      · exact .pure _
      · exact .fail _

namespace Recompiler

variable (r : Recompiler) (m : Metadata) (version : String)

theorem logsUnder_runCompiler (backend : Backend) (i : Invocation) (input : Bytes) :
    LogsUnder P o (r.runCompiler backend i input : Session ν CompilerError Bytes) := by
  refine .bind (.log _ _ _ _) fun _ => (LogsUnder.run _ _ _ _).bind fun ending => ?_
  split
  · exact .pure _
  · split
    · exact .bind (.log _ _ _ _) fun _ => .fail _
    · exact .fail _

/-- Compiling logs in the span in which it works, of which it records a field. -/
theorem logsUnder_compileWith
    (h : ∀ value s rest, P (s :: rest) → P (s.record "backend" value :: rest)) :
    LogsUnder P o (r.compileWith m version : Session ν CompilerError Compilation) := by
  refine (Cache.logsUnder_ensure _ _).bind fun compiler => .bind (.record (h _)) fun _ => ?_
  refine (Backend.logsUnder_invocation _ _ _).bind fun i => ?_
  exact (logsUnder_runCompiler r _ _ _).bind fun output =>
    (LogsUnder.ofExcept _).bind fun decoded => LogsUnder.closed.choose _ _ _

/-- All that is logged while compiling, is logged in a span around which are those that were open before. -/
theorem logged_recompile {P : Log.Span → Prop} (w : World ν)
    (hstart : P (.start "recompile" .info Log.Part.compiler.target [("version", .text version)]))
    (hrecord : ∀ s value, P s → P (s.record "backend" value)) :
    ∃ more, (r.recompile m version o w).2.log = w.log ++ more ∧
      ∀ record ∈ more, ∃ s, P s ∧ record.spans = s :: w.spans := by
  have hcompile : LogsUnder (fun spans => ∃ s, P s ∧ spans = s :: w.spans) o
      (r.compileWith m version : Session ν CompilerError Compilation) := by
    refine logsUnder_compileWith r m version fun value s rest h => ?_
    obtain ⟨s', hs', hspans⟩ := h
    obtain ⟨rfl, rfl⟩ := List.cons.inj hspans
    exact ⟨_, hrecord _ value hs', rfl⟩
  exact (hcompile { w with spans := _ :: w.spans } ⟨_, hstart, rfl⟩).2

end Recompiler

end Provenance
