import ByteCpu.Log.Level
import ByteCpu.Machine.Basic
import ByteCpu.Text.Lines
import ByteCpu.Text.Numeral

/-!
Log events as values, each with its level, the target it is reported under, the names of its fields,
and its line of text.
-/

set_option autoImplicit false

namespace ByteCpu

namespace Snapshot

def byteText (b : UInt8) : String := Text.upperHex 2 b.toNat

def render (s : Snapshot) : String :=
  let cells := s.window.map fun c => " " ++ (c.map byteText).getD "--"
  let registers := s.registers.map fun b => " " ++ byteText b
  Text.upperHex 2 s.pc ++ " |" ++ String.join cells ++ " |" ++ String.join registers

end Snapshot

namespace Log

inductive Event where
  | loaded (path : String) (length : Nat)
  | limitMalformed
  | running (pc : Nat)
  | fetching (s : Snapshot)
  | halted (steps : Nat)
  | flushFailed (cause : String)
  deriving DecidableEq, Repr

namespace Event

def level : Event → Level
  | loaded .. | running _ | halted _ | flushFailed _ => .debug
  | limitMalformed => .warn
  | fetching _ => .trace

def target : Event → String
  | loaded .. => "ls8::loader"
  | limitMalformed => "ls8::env"
  | running _ | fetching _ | halted _ => "ls8::machine"
  | flushFailed _ => "ls8"

def fields : Event → List String
  | loaded .. => ["message", "path", "len"]
  | running _ => ["message", "pc"]
  | halted _ => ["message", "steps"]
  | flushFailed _ => ["message", "error"]
  | limitMalformed | fetching _ => ["message"]

def text : Event → String
  | loaded path length => "loaded program path=" ++ path ++ " len=" ++ Text.decimal length
  | limitMalformed => "LS8_MAX_STEPS is not a whole number, running without a step limit"
  | running pc => "running pc=" ++ Text.decimal pc
  | fetching s => "TRACE: " ++ s.render
  | halted steps => "halted steps=" ++ Text.decimal steps
  | flushFailed cause => "failed to flush program output after fault error=" ++ cause

def render (e : Event) : String := e.level.column ++ " " ++ e.text

/-- The lines that the event takes; there are several if what it carries has newlines in it. -/
def lines (e : Event) : List String :=
  (Text.lines (e.render ++ "\n").toList).map String.ofList

example : (fetching (Machine.snapshot { pc := 255 })).render =
    "TRACE TRACE: FF | 00 -- -- | 00 00 00 00 00 00 00 F4" := by decide +kernel

end Event
end Log
end ByteCpu
