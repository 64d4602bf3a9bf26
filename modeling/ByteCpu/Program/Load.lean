import ByteCpu.Files.Tree
import ByteCpu.Log.Event
import ByteCpu.Program.Source

/-!
Loading a program file, given what reading its path came to.
-/

set_option autoImplicit false

namespace ByteCpu.Program

def load (path : Path) : ReadOutcome → Except LoadError (List UInt8)
  | .notFound => .error (.fileNotFound path)
  | .failed => .error (.unreadable path)
  | .content bytes =>
    match Text.Utf8.decode? bytes with
    | none => .error (.unreadable path)
    | some source => Source.parse path.display (String.ofList source)

def loadEvents (path : Path) : Except LoadError (List UInt8) → List Log.Event
  | .ok program => [.loaded path.display program.length]
  | .error _ => []

end ByteCpu.Program
