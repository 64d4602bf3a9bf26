import ByteCpu.Machine.Action
import ByteCpu.Machine.Opcode

/-!
What each instruction does, as an action on the machine and its sink. `instruction` is the whole of
it: fetch, decode, execute, count.
-/

set_option autoImplicit false

namespace ByteCpu.Action

variable {σ : Type}

def operate (op : AluOp) (i j : UInt8) : Action σ Unit := do
  let (registers, flags) ← lift (op.applyBytes (← machine).registers i j)
  move fun m => { m with registers, flags := flags <|> m.flags }

def push (r : UInt8) : Action σ Unit := do
  let sp ← growStack
  writeMemory sp.toNat (← readRegister r)

def pop (r : UInt8) : Action σ Unit := do
  writeRegister r (← readMemory (← machine).registers.sp.toNat)
  setSp ((← machine).registers.sp + 1)

def returnAddress (width : Nat) : Action σ UInt8 := do
  let address := (← machine).pc + width
  if address < 256 then return UInt8.ofNat address else throw (.memoryOutOfRange address)

def call (r back : UInt8) : Action σ Unit := do
  let sp ← growStack
  writeMemory sp.toNat back
  jump (← readRegister r)

def ret : Action σ Unit := do
  jump (← popValue)

/-- A conditional jump, taken when the flag for equality is `equal`. -/
def branch (equal : Bool) (width : Nat) (r : UInt8) : Action σ Unit := do
  let target ← readRegister r
  match (← machine).flags with
  | none => throw .flagsUninitialized
  | some f => if f.equal = equal then jump target else advance width

/-- Operands are read from left to right, a register is checked before the next operand is read,
and all of them before anything moves. A halting instruction leaves the program counter on
itself. -/
def execute [Sink σ] (op : Opcode) : Action σ Unit :=
  match op with
  | .hlt => move ({ · with state := .halted })
  | .ldi => do
    let r ← registerOperand 1
    let v ← operand 2
    writeRegister r v
    advance op.width
  | .prn => do
    print (← readRegister (← registerOperand 1))
    advance op.width
  | .alu f => do
    let i ← registerOperand 1
    let j ← registerOperand 2
    operate f i j
    advance op.width
  | .push => do
    push (← registerOperand 1)
    advance op.width
  | .pop => do
    pop (← registerOperand 1)
    advance op.width
  | .call => do
    let r ← registerOperand 1
    call r (← returnAddress op.width)
  | .ret => ret
  | .jmp => do
    jump (← readRegister (← registerOperand 1))
  | .jeq => do
    branch true op.width (← registerOperand 1)
  | .jne => do
    branch false op.width (← registerOperand 1)

def count : Action σ State := do
  move fun m => { m with steps := m.steps + 1 }
  return (← machine).state

def instruction [Sink σ] : Action σ State := do
  let pc := (← machine).pc
  let byte ← readMemory pc
  match Opcode.decode byte with
  | none => throw (.unknownOpcode byte pc)
  | some op =>
    execute op
    count

end ByteCpu.Action
