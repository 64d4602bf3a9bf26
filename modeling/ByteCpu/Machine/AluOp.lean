import ByteCpu.Machine.Registers

/-!
The operations between two registers. Sums, differences and products wrap at eight bits; a
comparison yields flags and stores nothing.
-/

set_option autoImplicit false

namespace ByteCpu

inductive AluOp where
  | add
  | sub
  | mul
  | div
  | cmp
  deriving DecidableEq, Repr

inductive AluResult where
  | value (v : UInt8)
  | flags (f : Flags)
  deriving DecidableEq, Repr

namespace AluOp

def all : List AluOp := [add, sub, mul, div, cmp]

def mnemonic : AluOp → String
  | add => "ADD"
  | sub => "SUB"
  | mul => "MUL"
  | div => "DIV"
  | cmp => "CMP"

/-- Names are mnemonics in either case of the ASCII letters. -/
def ofName (name : String) : Except Fault AluOp :=
  match all.find? fun op => op.mnemonic == name.map Char.toUpper with
  | some op => .ok op
  | none => .error (.unsupportedOperation name)

def eval : AluOp → UInt8 → UInt8 → Except Fault AluResult
  | add, x, y => .ok (.value (x + y))
  | sub, x, y => .ok (.value (x - y))
  | mul, x, y => .ok (.value (x * y))
  | div, x, y => if y = 0 then .error .divisionByZero else .ok (.value (x / y))
  | cmp, x, y => .ok (.flags (Flags.compare x y))

def apply (op : AluOp) (rs : Registers) (a b : Reg) : Except Fault (Registers × Option Flags) :=
  match op.eval (rs.get a) (rs.get b) with
  | .error f => .error f
  | .ok (.value v) => .ok (rs.set a v, none)
  | .ok (.flags f) => .ok (rs, some f)

def applyBytes (op : AluOp) (rs : Registers) (i j : UInt8) :
    Except Fault (Registers × Option Flags) := do
  let a ← Reg.ofByte i
  let b ← Reg.ofByte j
  op.apply rs a b

end AluOp
end ByteCpu
