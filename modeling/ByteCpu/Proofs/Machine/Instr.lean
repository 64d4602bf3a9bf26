import ByteCpu.Machine.Basic
import ByteCpu.Machine.Opcode

/-!
Instructions: an opcode with its operands, every register among them known to exist. An instruction
is written as bytes, and reading those bytes back gives the instruction.
-/

set_option autoImplicit false

namespace ByteCpu

theorem bind_eq_ok_iff {ε α β : Type} {x : Except ε α} {f : α → Except ε β} {b : β} :
    x >>= f = .ok b ↔ ∃ a, x = .ok a ∧ f a = .ok b := by
  cases x <;> simp [bind, Except.bind]

theorem map_eq_ok_iff {ε α β : Type} {f : α → β} {x : Except ε α} {b : β} :
    f <$> x = .ok b ↔ ∃ a, x = .ok a ∧ f a = b := by
  cases x <;> simp [Functor.map, Except.map]

namespace Memory

/-- The bytes stand in the cells from an address on. -/
def HoldsAt (m : Memory) (a : Nat) (bs : List UInt8) : Prop := bs <+: m.toList.drop a

instance (m : Memory) (a : Nat) (bs : List UInt8) : Decidable (m.HoldsAt a bs) :=
  inferInstanceAs (Decidable (_ <+: _))

theorem read_eq_ok_iff {m : Memory} {a : Nat} {b : UInt8} :
    m.read a = .ok b ↔ m.toList[a]? = some b := by
  unfold read toList
  split <;> grind

@[simp] theorem holdsAt_nil (m : Memory) (a : Nat) : m.HoldsAt a [] := List.nil_prefix

theorem holdsAt_cons {m : Memory} {a : Nat} {b : UInt8} {bs : List UInt8} :
    m.HoldsAt a (b :: bs) ↔ m.read a = .ok b ∧ m.HoldsAt (a + 1) bs := by
  unfold HoldsAt
  rw [read_eq_ok_iff]
  by_cases h : a < m.toList.length
  · rw [List.drop_eq_getElem_cons h, List.cons_prefix_cons, List.getElem?_eq_getElem h]
    simp [eq_comm]
  · rw [List.drop_eq_nil_of_le (by omega), List.getElem?_eq_none (by omega)]
    simp

theorem HoldsAt.le_size {m : Memory} {a : Nat} {bs : List UInt8} (h : m.HoldsAt a bs)
    (hne : bs ≠ []) : a + bs.length ≤ 256 := by
  have hl := List.IsPrefix.length_le h
  have hp := List.length_pos_iff.2 hne
  rw [List.length_drop, length_toList] at hl
  omega

end Memory

def Reg.byte (r : Reg) : UInt8 := UInt8.ofNat r.val

@[simp] theorem Reg.toNat_byte (r : Reg) : r.byte.toNat = r.val := by
  have h := r.isLt
  simp only [byte, UInt8.toNat_ofNat']
  omega

@[simp] theorem Reg.ofByte_byte (r : Reg) : Reg.ofByte r.byte = .ok r := by
  simp [ofByte, r.isLt]

theorem Reg.byte_of_ofByte {b : UInt8} {r : Reg} (h : Reg.ofByte b = .ok r) : b = r.byte := by
  unfold ofByte at h
  split at h
  · cases h
    simp [byte]
  · cases h

inductive Instr where
  | hlt
  | ret
  | push (r : Reg)
  | pop (r : Reg)
  | prn (r : Reg)
  | call (r : Reg)
  | jmp (r : Reg)
  | jeq (r : Reg)
  | jne (r : Reg)
  | ldi (r : Reg) (v : UInt8)
  | alu (op : AluOp) (a b : Reg)
  deriving DecidableEq, Repr

namespace Instr

def opcode : Instr → Opcode
  | hlt => .hlt
  | ret => .ret
  | push _ => .push
  | pop _ => .pop
  | prn _ => .prn
  | call _ => .call
  | jmp _ => .jmp
  | jeq _ => .jeq
  | jne _ => .jne
  | ldi _ _ => .ldi
  | alu op _ _ => .alu op

def operands : Instr → List UInt8
  | hlt | ret => []
  | push r | pop r | prn r | call r | jmp r | jeq r | jne r => [r.byte]
  | ldi r v => [r.byte, v]
  | alu _ a b => [a.byte, b.byte]

def bytes (i : Instr) : List UInt8 := i.opcode.byte :: i.operands

theorem length_bytes (i : Instr) : i.bytes.length = i.opcode.width := by
  cases i <;> rfl

/-- The register that operand `k` names, where `operand k` is the byte `k` places after the
opcode. -/
def registerAt (operand : Nat → Except Fault UInt8) (k : Nat) : Except Fault Reg :=
  operand k >>= Reg.ofByte

/-- Operands are read from left to right, and a register is checked before the next operand is
read. -/
def decode (operand : Nat → Except Fault UInt8) : Opcode → Except Fault Instr
  | .hlt => .ok hlt
  | .ret => .ok ret
  | .push => push <$> registerAt operand 1
  | .pop => pop <$> registerAt operand 1
  | .prn => prn <$> registerAt operand 1
  | .call => call <$> registerAt operand 1
  | .jmp => jmp <$> registerAt operand 1
  | .jeq => jeq <$> registerAt operand 1
  | .jne => jne <$> registerAt operand 1
  | .ldi => do return ldi (← registerAt operand 1) (← operand 2)
  | .alu op => do return alu op (← registerAt operand 1) (← registerAt operand 2)

theorem registerAt_eq_ok_iff {operand : Nat → Except Fault UInt8} {k : Nat} {r : Reg} :
    registerAt operand k = .ok r ↔ operand k = .ok r.byte := by
  unfold registerAt
  rw [bind_eq_ok_iff]
  constructor
  · rintro ⟨b, hb, hr⟩
    rw [hb, Reg.byte_of_ofByte hr]
  · intro h
    exact ⟨r.byte, h, Reg.ofByte_byte r⟩

theorem decode_congr {f g : Nat → Except Fault UInt8} {op : Opcode}
    (h : ∀ k, k < op.width → f k = g k) : decode f op = decode g op := by
  cases op with
  | hlt | ret => rfl
  | push | pop | prn | call | jmp | jeq | jne =>
    have first := h 1 (by decide)
    simp only [decode, registerAt, first]
  | ldi | alu =>
    have first := h 1 (by simp [Opcode.width, Opcode.operandCount])
    have second := h 2 (by simp [Opcode.width, Opcode.operandCount])
    simp only [decode, registerAt, first, second]

theorem decode_eq_ok_iff {m : Memory} {a : Nat} {op : Opcode} {i : Instr} :
    decode (fun k => m.read (a + k)) op = .ok i ↔
      op = i.opcode ∧ m.HoldsAt (a + 1) i.operands := by
  constructor
  · intro h
    cases op with
    | hlt | ret =>
      cases h
      exact ⟨rfl, Memory.holdsAt_nil m _⟩
    | push | pop | prn | call | jmp | jeq | jne =>
      obtain ⟨r, hr, rfl⟩ := map_eq_ok_iff.1 h
      have first := registerAt_eq_ok_iff.1 hr
      exact ⟨rfl, Memory.holdsAt_cons.2 ⟨first, Memory.holdsAt_nil m _⟩⟩
    | ldi =>
      obtain ⟨r, hr, h⟩ := bind_eq_ok_iff.1 h
      obtain ⟨v, second, h⟩ := bind_eq_ok_iff.1 h
      cases h
      have first := registerAt_eq_ok_iff.1 hr
      exact ⟨rfl, Memory.holdsAt_cons.2 ⟨first,
        Memory.holdsAt_cons.2 ⟨second, Memory.holdsAt_nil m _⟩⟩⟩
    | alu op =>
      obtain ⟨x, hx, h⟩ := bind_eq_ok_iff.1 h
      obtain ⟨y, hy, h⟩ := bind_eq_ok_iff.1 h
      cases h
      have first := registerAt_eq_ok_iff.1 hx
      have second := registerAt_eq_ok_iff.1 hy
      exact ⟨rfl, Memory.holdsAt_cons.2 ⟨first,
        Memory.holdsAt_cons.2 ⟨second, Memory.holdsAt_nil m _⟩⟩⟩
  · rintro ⟨rfl, h⟩
    cases i with
    | hlt | ret => rfl
    | push r | pop r | prn r | call r | jmp r | jeq r | jne r =>
      obtain ⟨first, -⟩ := Memory.holdsAt_cons.1 h
      exact map_eq_ok_iff.2 ⟨r, registerAt_eq_ok_iff.2 first, rfl⟩
    | ldi r v =>
      obtain ⟨first, h⟩ := Memory.holdsAt_cons.1 h
      obtain ⟨second, -⟩ := Memory.holdsAt_cons.1 h
      exact bind_eq_ok_iff.2
        ⟨r, registerAt_eq_ok_iff.2 first, bind_eq_ok_iff.2 ⟨v, second, rfl⟩⟩
    | alu op x y =>
      obtain ⟨first, h⟩ := Memory.holdsAt_cons.1 h
      obtain ⟨second, -⟩ := Memory.holdsAt_cons.1 h
      exact bind_eq_ok_iff.2
        ⟨x, registerAt_eq_ok_iff.2 first, bind_eq_ok_iff.2
          ⟨y, registerAt_eq_ok_iff.2 second, rfl⟩⟩

end Instr
end ByteCpu
