import ByteCpu.Command.Arguments
import ByteCpu.Command.Help
import ByteCpu.Diagnostic
import ByteCpu.Machine.Run
import ByteCpu.Program.Listing
import ByteCpu.Program.Load
import ByteCpu.Settings
import ByteCpu.Status

/-!
What commands do: the report of a command line, given the variables, the files and the device that
standard output is. A run is started, carried on and finished separately, so that it can also be
followed while it goes on.
-/

set_option autoImplicit false

namespace ByteCpu.Command

/-- What a command finds besides its arguments. Standard error takes everything: a program that
cannot write there ends abnormally, which no report tells of. -/
structure Surroundings where
  environment : Environment := {}
  coloured : Bool := false
  stdoutFull : Bool := false
  deriving DecidableEq, Repr

/-- What a command leaves. Standard error holds what comes before the report of the failure. -/
structure Report where
  exit : Nat
  stdout : String := ""
  stderr : String := ""
  failure : Option Failure := none
  deriving DecidableEq, Repr

namespace Report

def ofFailure (stdout stderr : String) (f : Failure) : Report :=
  ⟨f.diagnostic.exitCode, stdout, stderr, some f⟩

end Report

namespace Surroundings

def console (s : Surroundings) (minimal : Bool) : Console := ⟨s.coloured, minimal⟩

def stdout (s : Surroundings) : Stdout := { full := s.stdoutFull }

/-- Help and version texts are dropped by a full device without an error. -/
def printed (s : Surroundings) (text : String) : Report :=
  { exit := 0, stdout := if s.stdoutFull then "" else text }

end Surroundings

inductive Start where
  | failed (r : Report)
  | ready (m : Machine) (stderr : String)

/-- A limit on the command line comes before one from the variables, which is then not even
looked at. -/
def stepLimit (s : Surroundings) (options : Options) : Option Nat × List Log.Event :=
  match options.maxSteps with
  | some n => (some n, [])
  | none => (Settings.read s.environment).stepLimit

def startRun (s : Surroundings) (path : Path) (options : Options) (read : ReadOutcome) : Start :=
  let filter := s.environment.filter options.trace
  let console := s.console options.minimal
  let loading := console.file .green "Loading" path
  let loaded := Program.load path read
  let stderr := loading ++ filter.render (Program.loadEvents path loaded)
  match loaded with
  | .error e => .failed (Report.ofFailure "" stderr (.load e))
  | .ok program =>
    match Machine.withProgram program with
    | .error f => .failed (Report.ofFailure "" stderr (.fault f))
    | .ok m =>
      let (limit, events) := stepLimit s options
      let running := console.status .green "Running" (Text.decimal program.length ++ " bytes")
      .ready (m.withLimit limit) (stderr ++ filter.render events ++ running)

def flushAfterFault (out : Stdout) : List Log.Event :=
  if out.flush.2 then [] else [.flushFailed "No space left on device (os error 28)"]

def finishRun (s : Surroundings) (options : Options) (stderr : String)
    (o : Outcome Stdout Nat) : Report :=
  let filter := s.environment.filter options.trace
  let console := s.console options.minimal
  let stderr := stderr ++ filter.render o.log
  match o.result with
  | .ok steps =>
    let halted := console.status .cyan "Halted" ("after " ++ Text.decimal steps ++ " instructions")
    { exit := 0, stdout := o.sink.text, stderr := stderr ++ halted }
  | .error f =>
    let faulted := console.status .red "Faulted" ("at address " ++ addressText o.machine.pc)
    Report.ofFailure o.sink.text (stderr ++ filter.render (flushAfterFault o.sink) ++ faulted)
      (.fault f)

/-- A run without a step limit may have no end and then no report. -/
def run (s : Surroundings) (path : Path) (options : Options) (read : ReadOutcome) :
    Option Report :=
  match startRun s path options read with
  | .failed r => some r
  | .ready m stderr =>
    (m.run? (s.environment.filter options.trace) s.stdout).map (finishRun s options stderr)

def check (s : Surroundings) (path : Path) (read : ReadOutcome) : Report :=
  let filter := s.environment.filter false
  let console := s.console false
  let checking := console.file .green "Checking" path
  let loaded := Program.load path read
  let stderr := checking ++ filter.render (Program.loadEvents path loaded)
  match loaded with
  | .error e => Report.ofFailure "" stderr (.load e)
  | .ok program =>
    let success := console.status .green "Success"
      (Text.decimal program.length ++ " bytes, no errors found!")
    { exit := 0, stderr := stderr ++ success }

def writeLines {σ : Type} [Sink σ] : σ → List String → σ × Bool
  | out, [] => (out, true)
  | out, l :: ls =>
    match Sink.write out (l ++ "\n") with
    | (out', true) => writeLines out' ls
    | (out', false) => (out', false)

def disasm (s : Surroundings) (path : Path) (read : ReadOutcome) : Report :=
  let loaded := Program.load path read
  let stderr := (s.environment.filter false).render (Program.loadEvents path loaded)
  match loaded with
  | .error e => Report.ofFailure "" stderr (.load e)
  | .ok program =>
    match writeLines s.stdout ((Listing.ofProgram program).filterMap (·.render?)) with
    | (out, true) => { exit := 0, stdout := out.text, stderr }
    | (out, false) => Report.ofFailure out.text stderr (.fault .output)

/-- A welcome that cannot be printed ends the program abnormally. -/
def welcome (s : Surroundings) : Report :=
  if s.stdoutFull then { exit := 101 } else s.printed welcomeText

def Request.respond (s : Surroundings) (read : Path → ReadOutcome) : Request → Option Report
  | .welcome => some (Command.welcome s)
  | .run path options => Command.run s path options (read path)
  | .check path => some (Command.check s path (read path))
  | .disasm path => some (Command.disasm s path (read path))

def Stop.respond (s : Surroundings) : Stop → Report
  | .help topic => s.printed (topic.page.render.print s.coloured)
  | .version => s.printed versionText
  | .usage e => { exit := 2, stderr := e.line s.coloured }

def respond (s : Surroundings) (read : Path → ReadOutcome) (args : List Arg) : Option Report :=
  match Request.read args with
  | .error stop => some (stop.respond s)
  | .ok request => request.respond s read

end ByteCpu.Command
