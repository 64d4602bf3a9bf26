import ByteCpu.Machine.Fault
import ByteCpu.Program.Error
import ByteCpu.Text.Numeral

/-!
Diagnostics: how errors and faults are reported. Each has a message, a code, at most one line of
help, an exit code, and labels on parts of the source.
-/

set_option autoImplicit false

namespace ByteCpu

structure Label where
  text : String
  offset : Nat
  length : Nat
  deriving DecidableEq, Repr

structure Diagnostic where
  message : String
  code : String
  help : Option String := none
  exitCode : Nat := 1
  labels : List Label := []
  deriving DecidableEq, Repr

def exitFailure : Nat := 1
def exitFileNotFound : Nat := 2

def contextLines : Nat := 2

def quoted (s : String) : String := "`" ++ s ++ "`"

def addressText (a : Nat) : String := "0x" ++ Text.hex 2 a

def LoadError.diagnostic : LoadError → Diagnostic
  | .fileNotFound path => {
      message := "program file " ++ quoted path.display ++ " not found"
      code := "ls8::load::not_found"
      help := some "check the path to the program file"
      exitCode := exitFileNotFound }
  | .unreadable path => {
      message := "failed to read " ++ quoted path.display
      code := "ls8::load::io" }
  | .invalidByte bad => {
      message := "line " ++ Text.decimal bad.line ++ ": " ++ quoted bad.token ++
        " is not a base-2 byte"
      code := "ls8::load::invalid_byte"
      help := some ("each line holds one byte of up to eight `0`/`1` digits, " ++
        "optionally followed by a `#` comment")
      labels := [⟨"invalid byte", bad.offset, bad.length⟩] }
  | .programTooLarge length capacity => {
      message := "program is " ++ Text.decimal length ++ " bytes long but memory holds " ++
        Text.decimal capacity
      code := "ls8::load::too_large"
      help := some "programs are loaded at address 0 and must fit in memory" }

def Fault.diagnostic : Fault → Diagnostic
  | .memoryOutOfRange address => {
      message := "memory address " ++ addressText address ++ " is out of range"
      code := "ls8::vm::memory_range"
      help := some "the LS-8 addresses 256 bytes of memory, 0x00 to 0xff" }
  | .registerOutOfRange index => {
      message := "register R" ++ Text.decimal index.toNat ++ " does not exist"
      code := "ls8::vm::register_range"
      help := some "only registers R0 to R7 are available" }
  | .divisionByZero => {
      message := "division by zero"
      code := "ls8::vm::div_zero" }
  | .unsupportedOperation name => {
      message := "unsupported ALU operation " ++ quoted name
      code := "ls8::alu::unsupported"
      help := some "supported operations are ADD, SUB, MUL, DIV and CMP" }
  | .unknownOpcode opcode address => {
      message := "unknown opcode 0b" ++ Text.binary 8 opcode.toNat ++ " at address " ++
        addressText address
      code := "ls8::vm::unknown_opcode" }
  | .flagsUninitialized => {
      message := "conditional jump executed before any comparison"
      code := "ls8::vm::flags_unset"
      help := some "run CMP before JEQ or JNE" }
  | .stepLimitExceeded limit => {
      message := "step limit of " ++ Text.decimal limit ++ " instructions exceeded"
      code := "ls8::vm::step_limit"
      help := some "the program may be stuck in a loop; raise the limit with `--max-steps`" }
  | .output => {
      message := "failed to write program output"
      code := "ls8::vm::output" }

inductive Failure where
  | load (e : LoadError)
  | fault (f : Fault)
  deriving DecidableEq, Repr

def Failure.diagnostic : Failure → Diagnostic
  | .load e => e.diagnostic
  | .fault f => f.diagnostic

end ByteCpu
