import ByteCpu.Machine.Fault

/-!
The eight registers, the last of which is the stack pointer, and the flags of a comparison.
-/

set_option autoImplicit false

namespace ByteCpu

abbrev Reg := Fin 8

namespace Reg

/-- Register 7 holds the stack pointer and is otherwise a register like the others. -/
def sp : Reg := 7

def ofByte (b : UInt8) : Except Fault Reg :=
  if h : b.toNat < 8 then .ok ⟨b.toNat, h⟩ else .error (.registerOutOfRange b)

end Reg

structure Registers where
  cells : Vector UInt8 8
  deriving DecidableEq, Repr

namespace Registers

/-- Top of the empty stack, which grows towards address 0. -/
def spStart : UInt8 := 0xF4

def initial : Registers := ⟨#v[0, 0, 0, 0, 0, 0, 0, spStart]⟩

def get (rs : Registers) (r : Reg) : UInt8 := rs.cells[r]

def set (rs : Registers) (r : Reg) (v : UInt8) : Registers := ⟨rs.cells.set r v⟩

def sp (rs : Registers) : UInt8 := rs.get .sp

def setSp (rs : Registers) (v : UInt8) : Registers := rs.set .sp v

def read (rs : Registers) (index : UInt8) : Except Fault UInt8 := (Reg.ofByte index).map rs.get

def write (rs : Registers) (index v : UInt8) : Except Fault Registers :=
  (Reg.ofByte index).map (rs.set · v)

def toList (rs : Registers) : List UInt8 := rs.cells.toList

@[simp] theorem get_set_self (rs : Registers) (r : Reg) (v : UInt8) : (rs.set r v).get r = v := by
  simp [get, set]

theorem get_set_of_ne (rs : Registers) {r q : Reg} (v : UInt8) (h : r ≠ q) :
    (rs.set r v).get q = rs.get q := by
  have h' : r.val ≠ q.val := fun e => h (Fin.ext e)
  simp [get, set, h']

@[simp] theorem sp_setSp (rs : Registers) (v : UInt8) : (rs.setSp v).sp = v := get_set_self rs _ v

end Registers

structure Flags where
  equal : Bool
  less : Bool
  greater : Bool
  deriving DecidableEq, Repr

def Flags.compare (x y : UInt8) : Flags := ⟨x = y, x < y, x > y⟩

end ByteCpu
