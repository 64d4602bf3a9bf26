import ByteCpu.Machine.Basic
import ByteCpu.Machine.Sink

/-!
Actions: what is done to a machine and its sink, one move after another. An action that meets a
fault ends there, and the moves made before it stay made.
-/

set_option autoImplicit false

namespace ByteCpu

abbrev Action (σ α : Type) := EStateM Fault (Machine × σ) α

namespace Action

variable {σ α : Type}

def lift : Except Fault α → Action σ α
  | .ok a => pure a
  | .error f => throw f

def machine : Action σ Machine := return (← get).1

def move (f : Machine → Machine) : Action σ Unit := modify fun s => (f s.1, s.2)

def readMemory (address : Nat) : Action σ UInt8 := do
  lift ((← machine).memory.read address)

def writeMemory (address : Nat) (v : UInt8) : Action σ Unit := do
  let memory ← lift ((← machine).memory.write address v)
  move ({ · with memory })

def readRegister (index : UInt8) : Action σ UInt8 := do
  lift ((← machine).registers.read index)

def writeRegister (index v : UInt8) : Action σ Unit := do
  let registers ← lift ((← machine).registers.write index v)
  move ({ · with registers })

def setSp (v : UInt8) : Action σ Unit := move fun m => { m with registers := m.registers.setSp v }

def operand (k : Nat) : Action σ UInt8 := do
  readMemory ((← machine).pc + k)

def registerOperand (k : Nat) : Action σ UInt8 := do
  let index ← operand k
  let _ ← lift (Reg.ofByte index)
  return index

def growStack : Action σ UInt8 := do
  let sp := (← machine).registers.sp - 1
  setSp sp
  return sp

def popValue : Action σ UInt8 := do
  let sp := (← machine).registers.sp
  let v ← readMemory sp.toNat
  setSp (sp + 1)
  return v

def advance (width : Nat) : Action σ Unit := move fun m => { m with pc := m.pc + width }

def jump (target : UInt8) : Action σ Unit := move ({ · with pc := target.toNat })

/-- A sink that refuses the line may have stored a part of it. -/
def print [Sink σ] (v : UInt8) : Action σ Unit := do
  let (m, out) ← get
  let (out', accepted) := Sink.write out (printedLine v)
  set (m, out')
  unless accepted do throw .output

end Action
end ByteCpu
