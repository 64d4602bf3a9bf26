import ByteCpu.Machine.Fault

/-!
Memory: 256 byte cells that hold instructions and data alike. Addresses from outside are natural
numbers and may lie beyond the last cell; addresses that are bytes cannot.
-/

set_option autoImplicit false

namespace ByteCpu

structure Memory where
  cells : Vector UInt8 256
  deriving DecidableEq, Repr

namespace Memory

def size : Nat := 256

def zeroed : Memory := ⟨Vector.replicate 256 0⟩

def get (m : Memory) (a : UInt8) : UInt8 :=
  have : a.toNat < 256 := a.toNat_lt
  m.cells[a.toNat]

def set (m : Memory) (a v : UInt8) : Memory := ⟨m.cells.set a.toNat v a.toNat_lt⟩

def read (m : Memory) (address : Nat) : Except Fault UInt8 :=
  if h : address < 256 then .ok m.cells[address] else .error (.memoryOutOfRange address)

def write (m : Memory) (address : Nat) (v : UInt8) : Except Fault Memory :=
  if h : address < 256 then .ok ⟨m.cells.set address v⟩ else .error (.memoryOutOfRange address)

/-- Copies a program to the cells from address 0 on and leaves the cells above it; one that does
not fit is refused whole. -/
def load (m : Memory) (program : List UInt8) : Except Fault Memory :=
  if program.length ≤ 256 then
    .ok ⟨Vector.ofFn fun i => (program[i.val]?).getD m.cells[i]⟩
  else .error (.memoryOutOfRange 256)

def toList (m : Memory) : List UInt8 := m.cells.toList

def changes (before m : Memory) : List (Nat × UInt8) :=
  (before.toList.zip m.toList).zipIdx.filterMap fun p =>
    if p.1.1 = p.1.2 then none else some (p.2, p.1.2)

@[simp] theorem length_toList (m : Memory) : m.toList.length = 256 := by simp [toList]

theorem read_toNat (m : Memory) (a : UInt8) : m.read a.toNat = .ok (m.get a) := by
  have : a.toNat < 256 := a.toNat_lt
  simp [read, get, this]

@[simp] theorem get_set_self (m : Memory) (a v : UInt8) : (m.set a v).get a = v := by
  simp [get, set]

theorem get_set_of_ne (m : Memory) {a b : UInt8} (v : UInt8) (h : a ≠ b) :
    (m.set a v).get b = m.get b := by
  have h' : a.toNat ≠ b.toNat := fun e => h (UInt8.toNat_inj.mp e)
  simp [get, set, h']

end Memory
end ByteCpu
