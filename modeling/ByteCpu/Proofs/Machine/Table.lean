import ByteCpu.Proofs.Machine.Instr

/-!
The instruction table: which instruction stands at the program counter, when it is refused, what the
machine becomes when it is carried out, and which byte it prints. The table speaks of values from
before the instruction only, so that it holds no order of reads and writes.
-/

set_option autoImplicit false

namespace ByteCpu

def AluOp.number? : AluOp → Nat → Nat → Option Nat
  | .add, x, y => some ((x + y) % 256)
  | .sub, x, y => some ((x + 256 - y) % 256)
  | .mul, x, y => some (x * y % 256)
  | .div, x, y => some (x / y)
  | .cmp, _, _ => none

theorem AluOp.eq_cmp_of_number? {op : AluOp} {x y : Nat} (h : op.number? x y = none) :
    op = .cmp := by
  cases op <;> simp [number?] at h ⊢

namespace Machine

/-- The instruction stands at the program counter. -/
def Holds (m : Machine) (i : Instr) : Prop := m.memory.HoldsAt m.pc i.bytes

instance (m : Machine) (i : Instr) : Decidable (m.Holds i) :=
  inferInstanceAs (Decidable (m.memory.HoldsAt _ _))

def fetch (m : Machine) : Except Fault Instr := do
  let byte ← m.memory.read m.pc
  match Opcode.decode byte with
  | none => .error (.unknownOpcode byte m.pc)
  | some op => Instr.decode (fun k => m.memory.read (m.pc + k)) op

/-- Why an instruction is refused although its operands are in order. -/
def refusal? (m : Machine) : Instr → Option Fault
  | .alu .div _ b => if m.registers.get b = 0 then some .divisionByZero else none
  | .call _ => if m.pc + 2 < 256 then none else some (.memoryOutOfRange (m.pc + 2))
  | .jeq _ | .jne _ => if m.flags = none then some .flagsUninitialized else none
  | _ => none

theorem refusal?_alu (m : Machine) (op : AluOp) (a b : Reg) :
    m.refusal? (.alu op a b) =
      if op = .div ∧ m.registers.get b = 0 then some .divisionByZero else none := by
  cases op <;> simp [refusal?]

def next (m : Machine) : Except Fault Instr := do
  let i ← m.fetch
  match m.refusal? i with
  | none => .ok i
  | some f => .error f

theorem fetch_eq_ok_iff {m : Machine} {i : Instr} : m.fetch = .ok i ↔ m.Holds i := by
  unfold fetch Holds Instr.bytes
  rw [bind_eq_ok_iff, Memory.holdsAt_cons]
  constructor
  · rintro ⟨byte, hb, h⟩
    cases hd : Opcode.decode byte with
    | none => simp [hd] at h
    | some op =>
      rw [hd] at h
      obtain ⟨rfl, ho⟩ := Instr.decode_eq_ok_iff.1 h
      rw [← Opcode.byte_eq_of_decode hd] at hb
      exact ⟨hb, ho⟩
  · rintro ⟨hb, ho⟩
    refine ⟨i.opcode.byte, hb, ?_⟩
    rw [Opcode.decode_byte]
    exact Instr.decode_eq_ok_iff.2 ⟨rfl, ho⟩

theorem Holds.unique {m : Machine} {i j : Instr} (hi : m.Holds i) (hj : m.Holds j) : i = j := by
  have h := fetch_eq_ok_iff.2 hi
  rw [fetch_eq_ok_iff.2 hj] at h
  cases h
  rfl

theorem next_eq_ok_iff {m : Machine} {i : Instr} :
    m.next = .ok i ↔ m.Holds i ∧ m.refusal? i = none := by
  unfold next
  rw [bind_eq_ok_iff, ← fetch_eq_ok_iff]
  constructor
  · rintro ⟨j, hj, h⟩
    cases hr : m.refusal? j with
    | none =>
      rw [hr] at h
      cases h
      exact ⟨hj, hr⟩
    | some f => simp [hr] at h
  · rintro ⟨hf, hr⟩
    exact ⟨i, hf, by rw [hr]⟩

/-- A component that a line does not name stays as it is. -/
def after (m : Machine) (i : Instr) : Machine :=
  let reg := m.registers.get
  let sp := m.registers.sp
  let top := m.memory.get sp
  let m := { m with steps := m.steps + 1 }
  match i with
  | .hlt => { m with state := .halted }
  | .ldi r v => { m with registers := m.registers.set r v, pc := m.pc + 3 }
  | .alu op a b =>
    match op.number? (reg a).toNat (reg b).toNat with
    | some n => { m with registers := m.registers.set a (UInt8.ofNat n), pc := m.pc + 3 }
    | none => { m with flags := some (Flags.compare (reg a) (reg b)), pc := m.pc + 3 }
  | .prn _ => { m with pc := m.pc + 2 }
  | .push r => { m with
      memory := m.memory.set (sp - 1) (if r = .sp then sp - 1 else reg r)
      registers := m.registers.setSp (sp - 1)
      pc := m.pc + 2 }
  | .pop r => { m with
      registers :=
        if r = .sp then m.registers.setSp (top + 1) else (m.registers.set r top).setSp (sp + 1)
      pc := m.pc + 2 }
  | .call r => { m with
      memory := m.memory.set (sp - 1) (UInt8.ofNat (m.pc + 2))
      registers := m.registers.setSp (sp - 1)
      pc := (if r = .sp then sp - 1 else reg r).toNat }
  | .ret => { m with registers := m.registers.setSp (sp + 1), pc := top.toNat }
  | .jmp r => { m with pc := (reg r).toNat }
  | .jeq r => { m with pc := if m.flags.any (·.equal) then (reg r).toNat else m.pc + 2 }
  | .jne r => { m with pc := if m.flags.any (!·.equal) then (reg r).toNat else m.pc + 2 }

def printed? (m : Machine) : Instr → Option UInt8
  | .prn r => some (m.registers.get r)
  | _ => none

theorem printed?_eq_some_iff {m : Machine} {i : Instr} {v : UInt8} :
    m.printed? i = some v ↔ ∃ r, i = .prn r ∧ m.registers.get r = v := by
  cases i <;> simp [printed?]

@[simp] theorem steps_after (m : Machine) (i : Instr) : (m.after i).steps = m.steps + 1 := by
  cases i with
  | alu op a b => cases op <;> rfl
  | _ => rfl

theorem Holds.pc_add_width_le {m : Machine} {i : Instr} (h : m.Holds i) :
    m.pc + i.opcode.width ≤ 256 := by
  rw [← Instr.length_bytes]
  exact Memory.HoldsAt.le_size h (by simp [Instr.bytes])

theorem Holds.pc_after_le {m : Machine} {i : Instr} (h : m.Holds i) : (m.after i).pc ≤ 256 := by
  have hw := h.pc_add_width_le
  have hb := fun b : UInt8 => Nat.le_of_lt b.toNat_lt
  cases i with
  | hlt =>
    simp only [after]
    exact Nat.le_of_lt hw
  | ldi | prn | push | pop => exact hw
  | alu op a b => cases op <;> exact hw
  | ret | call | jmp => exact hb _
  | jeq | jne =>
    simp only [after]
    split
    · exact hb _
    · exact hw

@[simp] theorem steps_withLimit (m : Machine) (l : Option Nat) :
    (m.withLimit l).steps = m.steps := rfl

@[simp] theorem limit_after (m : Machine) (i : Instr) : (m.after i).limit = m.limit := by
  cases i with
  | alu op a b => cases op <;> rfl
  | _ => rfl

theorem after_withLimit (m : Machine) (limit : Option Nat) (i : Instr) :
    (m.withLimit limit).after i = (m.after i).withLimit limit := by
  cases i with
  | alu op a b => cases op <;> rfl
  | _ => rfl

end Machine
end ByteCpu
