/-!
Faults of the machine: the causes for which an instruction is refused. Their wording stands with
the other diagnostics.
-/

set_option autoImplicit false

namespace ByteCpu

inductive Fault where
  | memoryOutOfRange (address : Nat)
  | registerOutOfRange (index : UInt8)
  | divisionByZero
  | unsupportedOperation (name : String)
  | unknownOpcode (opcode : UInt8) (address : Nat)
  | flagsUninitialized
  | stepLimitExceeded (limit : Nat)
  | output
  deriving DecidableEq, Repr

end ByteCpu
