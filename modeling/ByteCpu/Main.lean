import ByteCpu.Command.Report

/-!
The command line program: it reads arguments, variables and files, follows a run while it goes on,
and prints what the library says.
-/

set_option autoImplicit false

namespace ByteCpu.Command

def readEnvironment : IO Environment := do
  ["LS8_MAX_STEPS", "LS8_TRACE", "RUST_LOG"].foldlM (fun vs name => do
    return vs.set name ((← IO.getEnv name).map (·.toUTF8.toList))) {}

def readPath (path : Path) : IO ReadOutcome := do
  try
    return .content (← IO.FS.readBinFile path.display).toList
  catch
    | .noFileOrDirectory .. => return .notFound
    | _ => return .failed

def print (stdout stderr : String) : IO Unit := do
  let out ← IO.getStdout
  out.putStr stdout
  out.flush
  IO.eprint stderr

def finish (r : Report) : IO UInt32 := do
  print r.stdout r.stderr
  if let some f := r.failure then
    let d := f.diagnostic
    IO.eprintln (d.code ++ "\n\n  " ++ d.message ++ (d.help.map ("\n  help: " ++ ·)).getD "")
  return r.exit.toUInt32

/-- Prints what a run has produced each time it pauses; `stderr` is what is still to be printed
before that. -/
partial def follow (s : Surroundings) (options : Options) (stderr : String) (m : Machine)
    (out : Stdout) (log : Array Log.Event) : IO UInt32 := do
  let filter := s.environment.filter options.trace
  match m.proceed filter 4096 out log with
  | .ended o => finish (finishRun s options stderr o)
  | .paused m out log =>
    print out.text (stderr ++ filter.render log)
    follow s options "" m { out with text := "" } #[]

def perform (s : Surroundings) (args : List String) : IO UInt32 := do
  match Request.read (args.map (·.toUTF8.toList)) with
  | .error stop => finish (stop.respond s)
  | .ok .welcome => finish (welcome s)
  | .ok (.check path) => finish (check s path (← readPath path))
  | .ok (.disasm path) => finish (disasm s path (← readPath path))
  | .ok (.run path options) =>
    match startRun s path options (← readPath path) with
    | .failed r => finish r
    | .ready m stderr =>
      let filter := s.environment.filter options.trace
      follow s options stderr m s.stdout (filter.emit (.running m.pc)).toArray

end ByteCpu.Command

open ByteCpu.Command in
/-- Where standard output fails, the answer is the one for a full device. -/
def main (args : List String) : IO UInt32 := do
  let s : Surroundings :=
    { environment := ← readEnvironment, coloured := ← (← IO.getStdout).isTty }
  try
    perform s args
  catch _ =>
    perform { s with stdoutFull := true } args
