import ByteCpu.Machine.Memory
import ByteCpu.Machine.Registers

/-!
The state of the machine. `snapshot` is the part of it that a trace line shows.
-/

set_option autoImplicit false

namespace ByteCpu

inductive State where
  | running
  | halted
  deriving DecidableEq, Repr

/-- `flags` holds the outcome of the latest comparison, `steps` the number of instructions
executed so far and `limit` the number that may be executed in all. -/
structure Machine where
  memory : Memory := .zeroed
  registers : Registers := .initial
  pc : Nat := 0
  flags : Option Flags := none
  state : State := .running
  steps : Nat := 0
  limit : Option Nat := none
  deriving DecidableEq, Repr

/-- The program counter, the cells there and at the next two addresses as far as they exist, and
the registers. -/
structure Snapshot where
  pc : Nat
  window : List (Option UInt8)
  registers : List UInt8
  deriving DecidableEq, Repr

namespace Machine

def withProgram (program : List UInt8) : Except Fault Machine :=
  (Memory.zeroed.load program).map fun memory => { memory }

def withLimit (m : Machine) (limit : Option Nat) : Machine := { m with limit }

def snapshot (m : Machine) : Snapshot where
  pc := m.pc
  window := [0, 1, 2].map fun k => (m.memory.read (m.pc + k)).toOption
  registers := m.registers.toList

def limitReached (m : Machine) : Option Nat := m.limit.filter (· ≤ m.steps)

end Machine
end ByteCpu
