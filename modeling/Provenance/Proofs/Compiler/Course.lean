import Provenance.Proofs.Compiler.Running

/-!
# How compilations go

A compilation makes sure of the compiler, finds out what to run, runs it and reads its output, and it ends
with the first of these steps that fails. `Recompiler.Course` lists how it may go, each time with the results
of the steps before and the worlds between them.
-/

namespace Provenance

variable {ν ε : Type} {o : Outside ν} {w : World ν}

namespace Recompiler

variable {r : Recompiler} {m : Metadata} {version : String}

/-- What the compiler of a metadata document reads. -/
def inputFor (m : Metadata) : Bytes := Text.encode m.standardJson.toValue.encode

/-- The contract of interest of a document, from what the compiler wrote. -/
def compilationOf (m : Metadata) (output : Bytes) : Except CompilerError Compilation := do
  let decoded ← (Json.decodeBytes CompilerOutput.decoder output).mapError .malformedOutput
  (decoded.compilation m.target? m.backend.tag?).mapError .ofResolution

/-- How a document is compiled: with which result, and what world it leaves. -/
inductive Course (r : Recompiler) (o : Outside ν) (m : Metadata) (version : String) (w : World ν) :
    Except CompilerError Compilation × World ν → Prop
  /-- There is no compiler. -/
  | unprovided {w₀ e w₁ w'} (began : w.Reported w₀)
    (provided : r.cache.ensure version o w₀ = (.error e, w₁)) (ended : w₁.Reported w') :
    Course r o m version w (.error e, w')
  /-- The toolchain around the compiler is not there. -/
  | uninvoked {w₀ path w₁ w₂ e w₃ w'} (began : w.Reported w₀)
    (provided : r.cache.ensure version o w₀ = (.ok path, w₁)) (recorded : w₁.Reported w₂)
    (invoked : m.backend.invocation r.cache path o w₂ = (.error e, w₃)) (ended : w₃.Reported w') :
    Course r o m version w (.error e, w')
  /-- The compiler did not end well, or did not even start. -/
  | failed {w₀ path w₁ w₂ i w₃ w₄ ending w₅ e w'} (began : w.Reported w₀)
    (provided : r.cache.ensure version o w₀ = (.ok path, w₁)) (recorded : w₁.Reported w₂)
    (invoked : m.backend.invocation r.cache path o w₂ = (.ok i, w₃)) (announced : w₃.Reported w₄)
    (ran : (Session.run i.program i.arguments (inputFor m) r.limit : Session ν CompilerError _) o w₄
      = (.ok ending, w₅))
    (flawed : outputOf m.backend i.program r.limit ending = .error e) (ended : w₅.Reported w') :
    Course r o m version w (.error e, w')
  /-- The compiler ended well, and its output is read. -/
  | finished {w₀ path w₁ w₂ i w₃ w₄ ending w₅ output w'} (began : w.Reported w₀)
    (provided : r.cache.ensure version o w₀ = (.ok path, w₁)) (recorded : w₁.Reported w₂)
    (invoked : m.backend.invocation r.cache path o w₂ = (.ok i, w₃)) (announced : w₃.Reported w₄)
    (ran : (Session.run i.program i.arguments (inputFor m) r.limit : Session ν CompilerError _) o w₄
      = (.ok ending, w₅))
    (collected : outputOf m.backend i.program r.limit ending = .ok output) (ended : w₅.Reported w') :
    Course r o m version w (compilationOf m output, w')

/-! ## Parts of a compilation -/

/-- Recording a field is a report. -/
theorem record_apply (name : String) (value : Log.Value) (w : World ν) :
    ∃ w', w.Reported w' ∧ (Session.record name value : Session ν ε Unit) o w = (.ok (), w') :=
  ⟨_, .spanned w _, rfl⟩

/-- Running a program comes to an ending. -/
theorem run_apply (program : String) (arguments : List String) (input : Bytes) (limit : Duration)
    (w : World ν) :
    ∃ ending w', (Session.run program arguments input limit : Session ν ε _) o w = (.ok ending, w') := by
  rcases @Session.run_cases ν ε o program arguments input limit w with
    ⟨fault, hrun⟩ | ⟨job, ending, w', hrun, -⟩
  · exact ⟨_, _, hrun⟩
  · exact ⟨_, _, hrun⟩

/-- A run is announced, and its failure is reported. -/
theorem runCompiler_apply (backend : Backend) (i : Invocation) (input : Bytes) (w : World ν) :
    ∃ w₁ ending w₂ w', w.Reported w₁ ∧
      (Session.run i.program i.arguments input r.limit : Session ν CompilerError _) o w₁ = (.ok ending, w₂) ∧
      w₂.Reported w' ∧
      r.runCompiler backend i input o w = (outputOf backend i.program r.limit ending, w') := by
  have hannounced := World.Reported.logged w [⟨.debug, Log.Part.compiler.target, .shown "Spawning compiler",
    [("program", .shown i.program), ("input_len", .integer input.length)]⟩]
  rw [runCompiler, Session.log_bind_apply]
  revert hannounced
  generalize w.logged _ = w₁
  intro hannounced
  obtain ⟨ending, w₂, hrun⟩ := @run_apply ν CompilerError o i.program i.arguments input r.limit w₁
  rw [Session.bind_of_ok hrun]
  cases houtput : outputOf backend i.program r.limit ending with
  | ok output => exact ⟨w₁, ending, w₂, w₂, hannounced, hrun, .refl w₂, by rw [houtput]; rfl⟩
  | error e =>
    dsimp only
    split
    · have hreported := World.Reported.logged w₂ [⟨.warn, Log.Part.compiler.target,
        .shown "Compiler exited unsuccessfully", [("error", .shown e.message)]⟩]
      exact ⟨w₁, ending, w₂, _, hannounced, hrun, hreported, by rw [houtput]; rfl⟩
    · exact ⟨w₁, ending, w₂, w₂, hannounced, hrun, .refl w₂, by rw [houtput]; rfl⟩

/-- The choice of a contract is reported. -/
theorem choose_apply (output : CompilerOutput) (declared : Option Target) (tag : Option String)
    (w : World ν) :
    ∃ w', w.Reported w' ∧ choose output declared tag o w
      = ((output.compilation declared tag).mapError .ofResolution, w') := by
  unfold choose
  -- each of the two reports may be left out
  generalize declared.filter _ = missing
  generalize output.declared? declared = found
  generalize output.firstDeployed? = first
  rcases missing with - | t <;> rcases found with - | a <;> rcases first with - | t' <;>
    exact ⟨_, ⟨_, _, rfl⟩, rfl⟩

/-- What was written is decoded, and the contract chosen from it. -/
theorem decode_apply (m : Metadata) (output : Bytes) (w : World ν) :
    ∃ w', w.Reported w' ∧
      (Session.ofExcept ((Json.decodeBytes CompilerOutput.decoder output).mapError .malformedOutput)
        >>= fun decoded => choose decoded m.target? m.backend.tag? : Session ν CompilerError Compilation) o w
        = (compilationOf m output, w') := by
  unfold compilationOf
  cases Json.decodeBytes CompilerOutput.decoder output with
  | error fault => exact ⟨w, .refl w, rfl⟩
  | ok decoded => exact choose_apply decoded m.target? m.backend.tag? w

/-! ## The whole -/

/-- Every document is compiled in one of these ways. -/
theorem course (r : Recompiler) (o : Outside ν) (m : Metadata) (version : String) (w : World ν) :
    Course r o m version w (r.recompile m version o w) := by
  unfold recompile Session.within
  have hbegan := World.Reported.spanned w
    (Log.Span.start "recompile" .info Log.Part.compiler.target [("version", .text version)] :: w.spans)
  revert hbegan
  generalize { w with spans := _ } = w₀
  intro hbegan
  unfold compileWith
  rcases hensure : r.cache.ensure version o w₀ with ⟨e | path, w₁⟩
  · rw [Session.bind_of_error hensure]
    exact .unprovided hbegan hensure (.spanned w₁ _)
  · obtain ⟨w₂, hrecorded, hrecord⟩ := @record_apply ν CompilerError o "backend" (.shown m.backend.text) w₁
    rw [Session.bind_of_ok hensure, Session.bind_of_ok hrecord]
    rcases hinvoke : m.backend.invocation r.cache path o w₂ with ⟨e | i, w₃⟩
    · rw [Session.bind_of_error hinvoke]
      exact .uninvoked hbegan hensure hrecorded hinvoke (.spanned w₃ _)
    · rw [Session.bind_of_ok hinvoke]
      obtain ⟨w₄, ending, w₅, w₆, hannounced, hran, hreported, hrun⟩ :=
        @runCompiler_apply ν o r m.backend i (inputFor m) w₃
      rw [inputFor] at hrun
      cases houtput : outputOf m.backend i.program r.limit ending with
      | error e =>
        rw [houtput] at hrun
        rw [Session.bind_of_error hrun]
        exact .failed hbegan hensure hrecorded hinvoke hannounced hran houtput
          (hreported.trans (.spanned w₆ _))
      | ok output =>
        rw [houtput] at hrun
        obtain ⟨w₇, hchosen, hdecode⟩ := @decode_apply ν o m output w₆
        rw [Session.bind_of_ok hrun, hdecode]
        exact .finished hbegan hensure hrecorded hinvoke hannounced hran houtput
          (hreported.trans (hchosen.trans (.spanned w₇ _)))

end Recompiler

end Provenance
