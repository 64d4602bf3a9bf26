import ByteCpu.Command.Report
import ByteCpu.Proofs.Command.Operand
import ByteCpu.Proofs.Machine.Logs
import ByteCpu.Proofs.Machine.Output

/-!
The command that runs a program. The main statement takes it apart: the text is parsed, the machine
gets the program and a limit, and its run decides on standard output, the exit code and the failure
that is reported, in which no other option and no other variable has a part.
-/

set_option autoImplicit false

namespace ByteCpu

namespace Stdout

theorem neverFails : Sink.NeverFails ({} : Stdout) := by
  refine ⟨fun o => o.full = false ∧ o.pending = false, ⟨rfl, rfl⟩, ?_⟩
  rintro o ⟨room, clear⟩
  have write (line : String) : Sink.write o line = ({ o with text := o.text ++ line }, true) := by
    change o.write line = _
    rw [Stdout.write, room, if_neg Bool.false_ne_true]
  have flush : Sink.flush o = (o, true) := by
    change o.flush = _
    rw [Stdout.flush, clear]
    rfl
  refine ⟨fun line => ?_, ?_⟩
  · rw [write]
    exact ⟨⟨room, clear⟩, rfl⟩
  · rw [flush]
    exact ⟨⟨room, clear⟩, rfl⟩

def view : Sink.View Stdout where
  text o := o.text
  text_of_accepted {o o' line} h := by
    change o.write line = _ at h
    unfold Stdout.write at h
    split at h <;> cases h
    rfl
  text_of_refused {o o' line} h := by
    change o.write line = _ at h
    unfold Stdout.write at h
    split at h <;> cases h
    exact ⟨[], List.nil_prefix, String.append_empty.symm⟩
  text_of_flush _ := rfl

end Stdout

namespace Machine

variable {σ : Type} [Sink σ] {filter : Log.Filter} {m : Machine} {out : σ} {o : Outcome σ Nat}

theorem text_of_neverFails (view : Sink.View σ) (accepts : Sink.NeverFails out)
    (run : m.run? filter out = some o) :
    view.text o.sink = view.text out ++ output (m.runTrace filter out) := by
  obtain ⟨out', stretch, ending⟩ := stretch_run run
  have text : view.text out' = view.text out ++ output (m.runTrace filter out) := by
    refine stretch.prints (P := fun vs out' => view.text out' = view.text out ++ printedLines vs)
      String.append_empty.symm ?_
    intro vs v out₁ out₂ before write
    rw [view.text_of_accepted write, before]
    simp [printedLines, String.append_assoc]
  rw [← text]
  have steps : steps? filter _ m out = some (o.machine, out') := steps?_of_stretch stretch
  have later := neverFails_of_steps? accepts steps
  generalize o.result = result at ending
  generalize o.sink = sink at ending
  cases ending with
  | halted _ flush | unflushed _ flush =>
    have same := view.text_of_flush out'
    rwa [flush] at same
  | fault _ error => rw [sink_of_error later error]

theorem halted_iff_ok (accepts : Sink.NeverFails out) (run : m.run? filter out = some o) :
    o.machine.state = .halted ↔ ∃ n, o.result = .ok n := by
  obtain ⟨out', stretch, ending⟩ := stretch_run run
  have steps : steps? filter _ m out = some (o.machine, out') := steps?_of_stretch stretch
  have later := neverFails_of_steps? accepts steps
  generalize o.result = result at ending
  generalize o.sink = sink at ending
  cases ending with
  | halted state => exact ⟨fun _ => ⟨_, rfl⟩, fun _ => state⟩
  | unflushed _ flush =>
    obtain ⟨good, start, keeps⟩ := later
    have agreed := (keeps out' start).2.2
    rw [flush] at agreed
    cases agreed
  | fault state =>
    constructor
    · intro halted
      cases state.symm.trans halted
    · rintro ⟨n, ⟨⟩⟩

end Machine

namespace Command

/-- The limit in force: that of the command line, else that of the variable if it is one. -/
def limitInForce (options : Options) (setting : StepSetting) : Option Nat :=
  match options.maxSteps, setting with
  | some n, _ => some n
  | none, .limit n => some n
  | none, .unset | none, .malformed => none

def warnings (options : Options) (setting : StepSetting) : List Log.Event :=
  if options.maxSteps = none ∧ setting = .malformed then [.limitMalformed] else []

theorem stepLimit_eq (s : Surroundings) (options : Options) :
    stepLimit s options =
      (limitInForce options (StepSetting.read s.environment.maxSteps),
        warnings options (StepSetting.read s.environment.maxSteps)) := by
  unfold stepLimit limitInForce warnings Settings.stepLimit Settings.read
  cases options.maxSteps with
  | some n => simp
  | none => cases StepSetting.read s.environment.maxSteps <;> simp

theorem exitCode_fault (f : Fault) : f.diagnostic.exitCode = 1 := by
  cases f <;> rfl

def Report.verdict (r : Report) : Nat × String × Option Failure := (r.exit, r.stdout, r.failure)

def verdictOf (o : Outcome Stdout Nat) : Nat × String × Option Failure :=
  match o.result with
  | .ok _ => (0, o.sink.text, none)
  | .error f => (1, o.sink.text, some (.fault f))

theorem of_verdict {r : Report} {o : Outcome Stdout Nat} (h : r.verdict = verdictOf o) :
    r.stdout = o.sink.text ∧ (∀ n, o.result = .ok n → r.exit = 0 ∧ r.failure = none) ∧
      ∀ f, o.result = .error f → r.exit = 1 ∧ r.failure = some (.fault f) := by
  unfold Report.verdict verdictOf at h
  cases result : o.result with
  | ok n =>
    simp only [result, Prod.mk.injEq] at h
    exact ⟨h.2.1, fun _ _ => ⟨h.1, h.2.2⟩, nofun⟩
  | error f =>
    simp only [result, Prod.mk.injEq] at h
    refine ⟨h.2.1, nofun, ?_⟩
    rintro _ ⟨⟩
    exact ⟨h.1, h.2.2⟩

theorem verdict_finishRun (s : Surroundings) (options : Options) (stderr : String)
    (o : Outcome Stdout Nat) : (finishRun s options stderr o).verdict = verdictOf o := by
  unfold finishRun verdictOf
  cases o.result with
  | ok n => rfl
  | error f => simp [Report.verdict, Report.ofFailure, Failure.diagnostic, exitCode_fault]

/-- A run as far as its verdict goes. Nothing but the file, the limit in force and standard output
has a part in it. -/
theorem verdict_run (s : Surroundings) (path : Path) (options : Options) (read : ReadOutcome) :
    (run s path options read).map (·.verdict) =
      match Program.load path read with
      | .error e => some (e.diagnostic.exitCode, "", some (.load e))
      | .ok program =>
        match Machine.withProgram program with
        | .error f => some (1, "", some (.fault f))
        | .ok m =>
          ((m.withLimit (limitInForce options (StepSetting.read s.environment.maxSteps))).run?
            .silent s.stdout).map verdictOf := by
  have shown (filter : Log.Filter) (o : Outcome Stdout Nat) :
      verdictOf (o.shown filter) = verdictOf o := rfl
  unfold run startRun
  cases Program.load path read with
  | error e => rfl
  | ok program =>
    dsimp only
    cases Machine.withProgram program with
    | error f => simp [Report.verdict, Report.ofFailure, Failure.diagnostic, exitCode_fault]
    | ok m =>
      simp only [stepLimit_eq]
      rw [Machine.run?_shown (s.environment.filter options.trace), Machine.run?_shown .silent]
      simp [verdict_finishRun, shown, Function.comp_def]

theorem length_le_of_parse {name source : String} {program : List UInt8}
    (h : Source.parse name source = .ok program) : program.length ≤ 256 := by
  unfold Source.parse at h
  dsimp only at h
  split at h
  · cases h
  · split at h
    next fits =>
      cases h
      exact fits
    next => cases h

theorem exitCode_of_parse {name source : String} {e : LoadError}
    (h : Source.parse name source = .error e) : e.diagnostic.exitCode = 1 := by
  unfold Source.parse at h
  dsimp only at h
  split at h
  · cases h
    rfl
  · split at h
    · cases h
    · cases h
      rfl

theorem exitCode_of_load {path : Path} {read : ReadOutcome} {e : LoadError}
    (h : Program.load path read = .error e) :
    e.diagnostic.exitCode = if read = .notFound then 2 else 1 := by
  cases read with
  | notFound =>
    cases h
    rfl
  | failed =>
    cases h
    rfl
  | content bytes =>
    unfold Program.load at h
    dsimp only at h
    split at h
    · cases h
      rfl
    · exact exitCode_of_parse h

theorem load_content {path : Path} {bytes : List UInt8} {source : List Char}
    (text : Text.Utf8.decode? bytes = some source) :
    Program.load path (.content bytes) = Source.parse path.display (String.ofList source) := by
  rw [Program.load, text]

theorem stdout_of_writable {s : Surroundings} (writable : s.stdoutFull = false) :
    s.stdout = {} := by
  rw [Surroundings.stdout, writable]

def loadingLine (s : Surroundings) (path : Path) (options : Options) : String :=
  (s.console options.minimal).file .green "Loading" path

def opening (s : Surroundings) (path : Path) (options : Options) (program : List UInt8) : String :=
  let filter := s.environment.filter options.trace
  loadingLine s path options ++ filter.render [.loaded path.display program.length] ++
    filter.render (warnings options (StepSetting.read s.environment.maxSteps)) ++
    (s.console options.minimal).status .green "Running" (Text.decimal program.length ++ " bytes")

def endingLine (s : Surroundings) (options : Options) (o : Outcome Stdout Nat) : String :=
  let console := s.console options.minimal
  match o.result with
  | .ok steps => console.status .cyan "Halted" ("after " ++ Text.decimal steps ++ " instructions")
  | .error _ => console.status .red "Faulted" ("at address " ++ addressText o.machine.pc)

/-- What is reported of a program that the machine `m` runs to the end `o`. The warning about the
variable stands before the run or nowhere. -/
structure RunReport (s : Surroundings) (path : Path) (options : Options) (program : List UInt8)
    (m : Machine) (o : Outcome Stdout Nat) (r : Report) : Prop where
  stdout : r.stdout = output (m.runTrace .silent ({} : Stdout))
  halts : r.exit = 0 ↔ o.machine.state = .halted
  ok {n : Nat} : o.result = .ok n → r.exit = 0 ∧ r.failure = none
  fault {f : Fault} : o.result = .error f → r.exit = 1 ∧ r.failure = some (.fault f)
  stderr : ∃ events, .limitMalformed ∉ events ∧
    r.stderr = opening s path options program ++
      (s.environment.filter options.trace).render events ++ endingLine s options o

theorem render_append (filter : Log.Filter) (es es' : List Log.Event) :
    filter.render (es ++ es') = filter.render es ++ filter.render es' := by
  simp [Log.Filter.render]

theorem stderr_finishRun (s : Surroundings) (options : Options) (stderr : String)
    (o : Outcome Stdout Nat) :
    ∃ flushing, .limitMalformed ∉ flushing ∧
      (finishRun s options stderr o).stderr =
        stderr ++ (s.environment.filter options.trace).render (o.log ++ flushing) ++
          endingLine s options o := by
  unfold finishRun endingLine
  cases o.result with
  | ok n =>
    refine ⟨[], nofun, ?_⟩
    rw [List.append_nil]
  | error f =>
    refine ⟨flushAfterFault o.sink, ?_, ?_⟩
    · unfold flushAfterFault
      split <;> simp
    · rw [render_append, ← String.append_assoc]
      rfl

theorem run_of_load_error {path : Path} {read : ReadOutcome} {e : LoadError}
    (s : Surroundings) (options : Options) (h : Program.load path read = .error e) :
    run s path options read =
      some ⟨e.diagnostic.exitCode, "", loadingLine s path options, some (.load e)⟩ := by
  unfold run startRun
  rw [h]
  simp [Report.ofFailure, Failure.diagnostic, Program.loadEvents, Log.Filter.render, loadingLine]

theorem not_limitMalformed {m : Machine} {out : Stdout} {o : Outcome Stdout Nat}
    (run : m.run? (.upTo .trace) out = some o) : .limitMalformed ∉ o.log := by
  rw [(Machine.logsInFull run).log]
  intro there
  obtain earlier | last := List.mem_append.1 ((List.mem_cons.1 there).resolve_left nofun)
  · obtain ⟨m', -, other⟩ := List.mem_map.1 earlier
    cases other
  · cases result : o.result with
    | ok n =>
      rw [result] at last
      cases List.mem_singleton.1 last
    | error f =>
      rw [result] at last
      cases last

theorem runReport {s : Surroundings} {path : Path} {options : Options} {bytes : List UInt8}
    {source : List Char} {program : List UInt8} {m : Machine} {o : Outcome Stdout Nat}
    (writable : s.stdoutFull = false) (text : Text.Utf8.decode? bytes = some source)
    (parsed : Source.parse path.display (String.ofList source) = .ok program)
    (loaded : Machine.withProgram program = .ok m)
    (ended : (m.withLimit (limitInForce options (StepSetting.read s.environment.maxSteps))).run?
      .silent ({} : Stdout) = some o) :
    ∃ r, run s path options (.content bytes) = some r ∧
      RunReport s path options program
        (m.withLimit (limitInForce options (StepSetting.read s.environment.maxSteps))) o r := by
  have same := Machine.run?_shown .silent
    (m.withLimit (limitInForce options (StepSetting.read s.environment.maxSteps))) ({} : Stdout)
  rw [ended] at same
  obtain ⟨full, traced, rfl⟩ := Option.map_eq_some_iff.1 same.symm
  have ran : run s path options (.content bytes) =
      some (finishRun s options (opening s path options program)
        (full.shown (s.environment.filter options.trace))) := by
    unfold run startRun
    simp only [load_content text, parsed, loaded, stepLimit_eq, stdout_of_writable writable]
    rw [Machine.run?_shown (s.environment.filter options.trace), traced]
    rfl
  obtain ⟨flushing, unwarned, stderr⟩ := stderr_finishRun s options
    (opening s path options program) (full.shown (s.environment.filter options.trace))
  obtain ⟨stdout, success, failure⟩ := of_verdict (verdict_finishRun s options
    (opening s path options program) (full.shown (s.environment.filter options.trace)))
  refine ⟨_, ran, ?_, ?_, success _, failure _, _, ?_, stderr⟩
  · rw [stdout]
    exact (Machine.text_of_neverFails Stdout.view Stdout.neverFails ended).trans String.empty_append
  · rw [Machine.halted_iff_ok Stdout.neverFails ended]
    cases result : full.result with
    | ok n => exact ⟨fun _ => ⟨n, result⟩, fun _ => (success n result).1⟩
    | error f =>
      constructor
      · intro zero
        cases zero.symm.trans (failure f result).1
      · rintro ⟨n, ok⟩
        cases ok.symm.trans result
  · intro there
    obtain logged | flushed := List.mem_append.1 there
    · exact not_limitMalformed traced (List.mem_filter.1 logged).1
    · exact unwarned flushed

/-- To run a file is to parse its text, to load the machine, to limit it and to run it. Standard
output has what the run prints, up to its end. The exit code is 0 just if it halts, else it is 1
with the error of the part that failed, and 2 if there is no file. Minimal output, tracing and the
other variables have no part in that, and a path alone stands for such a run. -/
theorem run_is_a_composition (s : Surroundings) (path : Path) (options : Options) :
    (s.stdoutFull = false → ∀ bytes source, Text.Utf8.decode? bytes = some source →
      (∀ e, Source.parse path.display (String.ofList source) = .error e →
        run s path options (.content bytes) =
          some ⟨1, "", loadingLine s path options, some (.load e)⟩) ∧
      ∀ program, Source.parse path.display (String.ofList source) = .ok program →
        ∃ m limited, Machine.withProgram program = .ok m ∧
          limited =
            m.withLimit (limitInForce options (StepSetting.read s.environment.maxSteps)) ∧
          (limited.run? .silent ({} : Stdout) = none →
            run s path options (.content bytes) = none) ∧
          ∀ o, limited.run? .silent ({} : Stdout) = some o →
            ∃ r, run s path options (.content bytes) = some r ∧
              RunReport s path options program limited o r) ∧
    (∀ (s' : Surroundings) (options' : Options) (read : ReadOutcome),
      s'.stdoutFull = s.stdoutFull → s'.environment.maxSteps = s.environment.maxSteps →
        options'.maxSteps = options.maxSteps →
          (run s' path options' read).map (·.verdict) =
            (run s path options read).map (·.verdict)) ∧
    (∀ read e, Program.load path read = .error e →
      ∃ r, run s path options read = some r ∧ r.stdout = "" ∧ r.failure = some (.load e) ∧
        r.exit = if read = .notFound then 2 else 1) ∧
    (∀ read args, Request.read args = .ok (.run path options) →
      respond s read args = run s path options (read path)) ∧
    ∀ a front, front = [] ∨ front = [dashes] →
      Request.read (front ++ [a]) = .ok (.run path options) →
        path = ⟨a⟩ ∧ options = {} ∧ Request.read (runWord :: (front ++ [a])) = .ok (.run path {}) ∧
          ∀ read, respond s read (front ++ [a]) = respond s read (runWord :: (front ++ [a])) := by
  refine ⟨fun writable bytes source text => ?_, fun s' options' read full limit given => ?_,
    fun read e error => ?_, fun read args request => ?_, fun a front few request => ?_⟩
  · refine ⟨fun e parsed => ?_, fun program parsed => ?_⟩
    · have ran := run_of_load_error s options ((load_content text).trans parsed)
      rwa [exitCode_of_parse parsed] at ran
    · have loaded : Machine.withProgram program = .ok (Machine.loaded program) :=
        Machine.withProgram_eq_ok_iff.2 ⟨length_le_of_parse parsed, rfl⟩
      refine ⟨_, _, loaded, rfl, fun endless => ?_, fun o ended =>
        runReport writable text parsed loaded ended⟩
      have verdict := verdict_run s path options (.content bytes)
      simp only [load_content text, parsed, loaded, stdout_of_writable writable] at verdict
      rw [endless] at verdict
      exact Option.map_eq_none_iff.1 verdict
  · have same : s'.stdout = s.stdout := by rw [Surroundings.stdout, full, Surroundings.stdout]
    have inForce (setting : StepSetting) :
        limitInForce options' setting = limitInForce options setting := by
      unfold limitInForce
      rw [given]
    rw [verdict_run, verdict_run, limit, inForce, same]
  · exact ⟨_, run_of_load_error s options error, rfl, rfl, exitCode_of_load error⟩
  · rw [respond, request]
    rfl
  · obtain rfl | rfl := few
    · obtain ⟨rfl, rfl, same⟩ := read_operand request
      refine ⟨rfl, rfl, same, fun read => ?_⟩
      rw [respond, request, respond, List.nil_append, same]
    · obtain ⟨rfl, rfl, same⟩ := read_dashes_operand request
      refine ⟨rfl, rfl, same, fun read => ?_⟩
      rw [respond, request, respond, List.singleton_append, same]

def twelveText : List UInt8 := "10000010\n0\n1100\n01000111\n0\n1 # halts".toUTF8.toList

def malformedLimit : Surroundings := { environment := { maxSteps := some "ten".toUTF8.toList } }

theorem twelveText_run_is_a_composition :
    ∃ r, respond malformedLimit (fun _ => .content twelveText) ["p".toUTF8.toList] = some r ∧
      r.exit = 0 ∧ r.stdout = "12\n" ∧ r.failure = none ∧
      (run malformedLimit (.ofString "p") { minimal := true, trace := true }
        (.content twelveText)).map (·.verdict) = some (0, "12\n", none) ∧
      ∃ r, run malformedLimit (.ofString "p") {} .notFound = some r ∧ r.exit = 2 := by
  have request : Request.read ["p".toUTF8.toList] = .ok (.run (.ofString "p") {}) := by
    decide +kernel
  have text : Text.Utf8.decode? twelveText =
      some "10000010\n0\n1100\n01000111\n0\n1 # halts".toList := by decide +kernel
  have parsed : Source.parse (Path.ofString "p").display
      (String.ofList "10000010\n0\n1100\n01000111\n0\n1 # halts".toList) =
        .ok Machine.twelve := by decide +kernel
  have unlimited : limitInForce {} (StepSetting.read malformedLimit.environment.maxSteps) =
      none := by decide +kernel
  obtain ⟨compose, alike, failing, asked, -⟩ :=
    run_is_a_composition malformedLimit (.ofString "p") {}
  obtain ⟨m, limited, loaded, rfl, -, report⟩ := (compose rfl twelveText _ text).2 _ parsed
  obtain rfl := (Machine.withProgram_eq_ok_iff.1 loaded).2
  rw [unlimited] at report
  have ends : (((Machine.loaded Machine.twelve).withLimit none).run? .silent ({} : Stdout)).map
      (fun o => (o.result.toOption, o.machine.state)) = some (some 3, .halted) := by
    decide +kernel
  obtain ⟨o, ended, shape⟩ := Option.map_eq_some_iff.1 ends
  obtain ⟨three, halted⟩ := Prod.mk.inj shape
  obtain ⟨r, ran, reported⟩ := report o ended
  have exit := reported.halts.2 halted
  have printed : printedBytes (((Machine.loaded Machine.twelve).withLimit none).runTrace .silent
      ({} : Stdout)) = [12] := by decide +kernel
  have stdout : r.stdout = "12\n" := by
    rw [reported.stdout, output, printed]
    decide
  have failure : r.failure = none := by
    cases result : o.result with
    | ok n => exact (reported.ok result).2
    | error f => simp [result, Except.toOption] at three
  have verbose := alike malformedLimit { minimal := true, trace := true } (.content twelveText)
    rfl rfl rfl
  rw [ran, Option.map_some, Report.verdict, exit, stdout, failure] at verbose
  obtain ⟨r', missing, -, -, two⟩ := failing .notFound _ rfl
  exact ⟨r, (asked _ _ request).trans ran, exit, stdout, failure, verbose, r', missing, two⟩

end Command
end ByteCpu
