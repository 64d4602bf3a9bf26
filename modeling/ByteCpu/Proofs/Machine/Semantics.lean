import ByteCpu.Machine.Step
import ByteCpu.Proofs.Machine.Table

/-!
What actions come to. The main statement is that an instruction, carried out move by move, does
what the instruction table says or meets its fault before its first move.
-/

set_option autoImplicit false

namespace ByteCpu

variable {σ : Type}

theorem bind_error {ε α β : Type} (e : ε) (f : α → Except ε β) :
    (.error e : Except ε α) >>= f = .error e := rfl

theorem bind_ok {ε α β : Type} (a : α) (f : α → Except ε β) :
    (.ok a : Except ε α) >>= f = f a := rfl

def Fault.of? {α : Type} : Except Fault α → Option Fault
  | .ok _ => none
  | .error f => some f

namespace Fault

variable {α β : Type}

theorem of?_eq_some_iff {x : Except Fault α} {f : Fault} : of? x = some f ↔ x = .error f := by
  cases x <;> simp [of?]

theorem of?_map (g : α → β) (x : Except Fault α) : of? (g <$> x) = of? x := by
  cases x <;> rfl

end Fault

namespace Registers

theorem read_byte (rs : Registers) (r : Reg) : rs.read r.byte = .ok (rs.get r) := by
  simp [read, Except.map]

theorem write_byte (rs : Registers) (r : Reg) (v : UInt8) :
    rs.write r.byte v = .ok (rs.set r v) := by
  simp [write, Except.map]

theorem get_setSp (rs : Registers) (r : Reg) (v : UInt8) :
    (rs.setSp v).get r = if r = .sp then v else rs.get r := by
  split
  next h => rw [h]; exact get_set_self rs _ v
  next h => exact get_set_of_ne rs v (Ne.symm h)

theorem sp_set (rs : Registers) (r : Reg) (v : UInt8) :
    (rs.set r v).sp = if r = .sp then v else rs.sp := by
  split
  next h => rw [h]; exact get_set_self rs _ v
  next h => exact get_set_of_ne rs v h

theorem setSp_setSp (rs : Registers) (v w : UInt8) : (rs.setSp v).setSp w = rs.setSp w := by
  simp [setSp, set]

end Registers

theorem Memory.write_toNat (m : Memory) (a v : UInt8) : m.write a.toNat v = .ok (m.set a v) := by
  have h : a.toNat < 256 := a.toNat_lt
  simp [write, set, h]

theorem AluOp.eval_eq (op : AluOp) (x y : UInt8) :
    op.eval x y = match op.number? x.toNat y.toNat with
      | none => .ok (.flags (Flags.compare x y))
      | some n =>
        if op = .div ∧ y = 0 then .error .divisionByZero else .ok (.value (UInt8.ofNat n)) := by
  have hy := y.toNat_lt
  cases op with
  | add =>
    have h : x + y = UInt8.ofNat ((x.toNat + y.toNat) % 256) :=
      UInt8.toNat_inj.1 (by simp [UInt8.toNat_add])
    simp [eval, number?, h]
  | sub =>
    have h : x - y = UInt8.ofNat ((x.toNat + 256 - y.toNat) % 256) :=
      UInt8.toNat_inj.1 (by simp [UInt8.toNat_sub]; omega)
    simp [eval, number?, h]
  | mul =>
    have h : x * y = UInt8.ofNat (x.toNat * y.toNat % 256) :=
      UInt8.toNat_inj.1 (by simp [UInt8.toNat_mul])
    simp [eval, number?, h]
  | div =>
    have h : x / y = UInt8.ofNat (x.toNat / y.toNat) := by
      simp [← UInt8.toNat_div]
    simp [eval, number?, h]
  | cmp => simp [eval, number?]

theorem AluOp.applyBytes_byte (op : AluOp) (rs : Registers) (a b : Reg) :
    op.applyBytes rs a.byte b.byte =
      match op.number? (rs.get a).toNat (rs.get b).toNat with
      | none => .ok (rs, some (Flags.compare (rs.get a) (rs.get b)))
      | some n =>
        if op = .div ∧ rs.get b = 0 then .error .divisionByZero
        else .ok (rs.set a (UInt8.ofNat n), none) := by
  simp only [applyBytes, Reg.ofByte_byte, bind_ok, apply, eval_eq]
  cases op.number? (rs.get a).toNat (rs.get b).toNat with
  | none => rfl
  | some n =>
    by_cases h : op = .div ∧ rs.get b = 0
    · simp only [if_pos h]
    · simp only [if_neg h]

namespace Action

variable {α : Type}

@[simp] theorem run_lift (r : Except Fault α) (s : Machine × σ) :
    (lift r).run s = match r with
      | .ok a => .ok a s
      | .error f => .error f s := by
  cases r <;> rfl

@[simp] theorem run_throw (f : Fault) (s : Machine × σ) :
    (throw f : Action σ α).run s = .error f s := rfl

@[simp] theorem run_map {β : Type} (g : α → β) (x : Action σ α) (s : Machine × σ) :
    (g <$> x).run s = match x.run s with
      | .ok a s => .ok (g a) s
      | .error f s => .error f s := by
  simp only [Functor.map, EStateM.map, EStateM.run]
  cases x s <;> rfl

@[simp] theorem run_machine (s : Machine × σ) : machine.run s = .ok s.1 s := rfl

@[simp] theorem run_move (f : Machine → Machine) (s : Machine × σ) :
    (move f).run s = .ok () (f s.1, s.2) := rfl

@[simp] theorem run_operand (k : Nat) (s : Machine × σ) :
    (operand k).run s = (lift (s.1.memory.read (s.1.pc + k))).run s := rfl

@[simp] theorem run_readMemory (a : Nat) (s : Machine × σ) :
    (readMemory a).run s = (lift (s.1.memory.read a)).run s := rfl

@[simp] theorem run_writeMemory (a v : UInt8) (s : Machine × σ) :
    (writeMemory a.toNat v).run s = .ok () ({ s.1 with memory := s.1.memory.set a v }, s.2) := by
  simp [writeMemory, Memory.write_toNat]

@[simp] theorem run_readRegister (r : Reg) (s : Machine × σ) :
    (readRegister r.byte).run s = .ok (s.1.registers.get r) s := by
  simp [readRegister, Registers.read_byte]

@[simp] theorem run_writeRegister (r : Reg) (v : UInt8) (s : Machine × σ) :
    (writeRegister r.byte v).run s =
      .ok () ({ s.1 with registers := s.1.registers.set r v }, s.2) := by
  simp [writeRegister, Registers.write_byte]

theorem run_registerOperand (k : Nat) (s : Machine × σ) :
    (registerOperand k).run s =
      match Instr.registerAt (fun k => s.1.memory.read (s.1.pc + k)) k with
      | .ok r => .ok r.byte s
      | .error f => .error f s := by
  unfold registerOperand Instr.registerAt
  cases hb : s.1.memory.read (s.1.pc + k) with
  | error f => simp [hb, bind_error]
  | ok b =>
    cases hr : Reg.ofByte b with
    | error f => simp [hb, hr, bind_ok]
    | ok r => simp [hb, bind_ok, Reg.byte_of_ofByte hr]

@[simp] theorem run_growStack (s : Machine × σ) :
    growStack.run s = .ok (s.1.registers.sp - 1)
      ({ s.1 with registers := s.1.registers.setSp (s.1.registers.sp - 1) }, s.2) := rfl

@[simp] theorem run_setSp (v : UInt8) (s : Machine × σ) :
    (setSp v).run s = .ok () ({ s.1 with registers := s.1.registers.setSp v }, s.2) := rfl

@[simp] theorem run_jump (v : UInt8) (s : Machine × σ) :
    (jump v).run s = .ok () ({ s.1 with pc := v.toNat }, s.2) := rfl

@[simp] theorem run_advance (k : Nat) (s : Machine × σ) :
    (advance k).run s = .ok () ({ s.1 with pc := s.1.pc + k }, s.2) := rfl

theorem run_push (r : Reg) (s : Machine × σ) :
    (push r.byte).run s =
      let sp := s.1.registers.sp - 1
      .ok () ({ s.1 with
        memory := s.1.memory.set sp (if r = .sp then sp else s.1.registers.get r)
        registers := s.1.registers.setSp sp }, s.2) := by
  simp [push, Registers.get_setSp]

theorem run_pop (r : Reg) (s : Machine × σ) :
    (pop r.byte).run s =
      let sp := s.1.registers.sp
      let top := s.1.memory.get sp
      .ok () ({ s.1 with registers :=
        if r = .sp then s.1.registers.setSp (top + 1)
        else (s.1.registers.set r top).setSp (sp + 1) }, s.2) := by
  by_cases h : r = .sp
  · subst h
    simp [pop, Memory.read_toNat, Registers.sp_set]
    exact Registers.setSp_setSp _ _ _
  · simp [pop, Memory.read_toNat, Registers.sp_set, h]

theorem run_call (r : Reg) (back : UInt8) (s : Machine × σ) :
    (call r.byte back).run s =
      let sp := s.1.registers.sp - 1
      .ok () ({ s.1 with
        memory := s.1.memory.set sp back
        registers := s.1.registers.setSp sp
        pc := (if r = .sp then sp else s.1.registers.get r).toNat }, s.2) := by
  simp [call, Registers.get_setSp]

theorem run_ret (s : Machine × σ) :
    ret.run s =
      let sp := s.1.registers.sp
      .ok () ({ s.1 with
        registers := s.1.registers.setSp (sp + 1), pc := (s.1.memory.get sp).toNat }, s.2) := by
  simp [ret, popValue, Memory.read_toNat]

theorem run_operate (op : AluOp) (a b : Reg) (s : Machine × σ) :
    (operate op a.byte b.byte).run s =
      match op.number? (s.1.registers.get a).toNat (s.1.registers.get b).toNat with
      | none => .ok () ({ s.1 with
          flags := some (Flags.compare (s.1.registers.get a) (s.1.registers.get b)) }, s.2)
      | some n =>
        if op = .div ∧ s.1.registers.get b = 0 then .error .divisionByZero s
        else .ok () ({ s.1 with registers := s.1.registers.set a (UInt8.ofNat n) }, s.2) := by
  simp only [operate, EStateM.run_bind, run_machine, run_lift, AluOp.applyBytes_byte]
  cases op.number? (s.1.registers.get a).toNat (s.1.registers.get b).toNat with
  | none => simp
  | some n =>
    by_cases h : op = .div ∧ s.1.registers.get b = 0
    · simp only [if_pos h]
    · simp [if_neg h]

end Action

/-- What an instruction comes to that stands at the program counter. -/
def Machine.carryOut [Sink σ] (m : Machine) (out : σ) (i : Instr) :
    EStateM.Result Fault (Machine × σ) State :=
  match m.refusal? i, m.printed? i with
  | some f, _ => .error f (m, out)
  | none, none => .ok (m.after i).state (m.after i, out)
  | none, some v =>
    match Sink.write out (printedLine v) with
    | (out', true) => .ok (m.after i).state (m.after i, out')
    | (out', false) => .error .output (m, out')

namespace Action

open Machine

@[simp] theorem run_count (s : Machine × σ) :
    count.run s = .ok s.1.state ({ s.1 with steps := s.1.steps + 1 }, s.2) := rfl

@[simp] theorem run_print [Sink σ] (v : UInt8) (s : Machine × σ) :
    (print v).run s = match Sink.write s.2 (printedLine v) with
      | (out', true) => .ok () (s.1, out')
      | (out', false) => .error .output (s.1, out') := by
  simp only [print, EStateM.run_bind, EStateM.run_get, EStateM.run_set]
  cases h : Sink.write s.2 (printedLine v) with
  | mk out' accepted => cases accepted <;> simp

theorem run_branch (equal : Bool) (width : Nat) (r : Reg) (s : Machine × σ) :
    (branch equal width r.byte).run s =
      match s.1.flags with
      | none => .error .flagsUninitialized s
      | some f => .ok () ({ s.1 with
          pc := if f.equal = equal then (s.1.registers.get r).toNat else s.1.pc + width },
          s.2) := by
  simp only [branch, EStateM.run_bind, run_readRegister, run_machine]
  cases hf : s.1.flags with
  | none => rfl
  | some f =>
    by_cases h : f.equal = equal
    · simp [h, hf]
    · simp [h, hf]

/-- Fetching goes on after a register operand unless the operand is missing or names none. -/
theorem run_registerOperand_bind {α : Type} {g : UInt8 → Action σ α} {s : Machine × σ}
    {rest : Reg → Except Fault Instr} {done : Instr → EStateM.Result Fault (Machine × σ) α}
    (k : Nat) (h : ∀ r : Reg, (g r.byte).run s =
      match rest r with
      | .error f => .error f s
      | .ok i => done i) :
    (registerOperand k >>= g).run s =
      match Instr.registerAt (fun k => s.1.memory.read (s.1.pc + k)) k >>= rest with
      | .error f => .error f s
      | .ok i => done i := by
  rw [EStateM.run_bind, run_registerOperand]
  cases Instr.registerAt (fun k => s.1.memory.read (s.1.pc + k)) k with
  | error f => rfl
  | ok r => exact h r

theorem run_registerOperand_map {α : Type} {g : UInt8 → Action σ α} {s : Machine × σ}
    {c : Reg → Instr} {done : Instr → EStateM.Result Fault (Machine × σ) α}
    (h : ∀ r : Reg, (g r.byte).run s = done (c r)) :
    (registerOperand 1 >>= g).run s =
      match c <$> Instr.registerAt (fun k => s.1.memory.read (s.1.pc + k)) 1 with
      | .error f => .error f s
      | .ok i => done i := by
  rw [map_eq_pure_bind]
  exact run_registerOperand_bind 1 h

theorem run_execute [Sink σ] (op : Opcode) (m : Machine) (out : σ) :
    (execute op >>= fun _ => count).run (m, out) =
      match Instr.decode (fun k => m.memory.read (m.pc + k)) op with
      | .error f => .error f (m, out)
      | .ok i => m.carryOut out i := by
  cases op with
  | hlt => rfl
  | ret => simp [execute, Instr.decode, run_ret, carryOut, refusal?, printed?, after]
  | push =>
    simp only [execute, bind_assoc, Instr.decode]
    refine run_registerOperand_map fun r => ?_
    simp [run_push, carryOut, refusal?, printed?, after, Opcode.width, Opcode.operandCount]
  | pop =>
    simp only [execute, bind_assoc, Instr.decode]
    refine run_registerOperand_map fun r => ?_
    simp [run_pop, carryOut, refusal?, printed?, after, Opcode.width, Opcode.operandCount]
  | prn =>
    simp only [execute, bind_assoc, Instr.decode]
    refine run_registerOperand_map fun r => ?_
    cases hw : Sink.write out (printedLine (m.registers.get r)) with
    | mk out' accepted =>
      cases accepted <;>
        simp [hw, carryOut, refusal?, printed?, after, Opcode.width, Opcode.operandCount]
  | call =>
    simp only [execute, bind_assoc, Instr.decode]
    refine run_registerOperand_map fun r => ?_
    by_cases h : m.pc + 2 < 256
    · simp [h, returnAddress, run_call, carryOut, refusal?, printed?, after, Opcode.width,
        Opcode.operandCount]
    · simp [h, returnAddress, carryOut, refusal?, printed?, Opcode.width, Opcode.operandCount]
  | jmp =>
    simp only [execute, bind_assoc, Instr.decode]
    refine run_registerOperand_map fun r => ?_
    simp [carryOut, refusal?, printed?, after]
  | jeq =>
    simp only [execute, bind_assoc, Instr.decode]
    refine run_registerOperand_map fun r => ?_
    cases hf : m.flags <;>
      simp [run_branch, hf, carryOut, refusal?, printed?, after, Opcode.width, Opcode.operandCount]
  | jne =>
    simp only [execute, bind_assoc, Instr.decode]
    refine run_registerOperand_map fun r => ?_
    cases hf : m.flags <;>
      simp [run_branch, hf, carryOut, refusal?, printed?, after, Opcode.width, Opcode.operandCount]
  | ldi =>
    simp only [execute, bind_assoc, Instr.decode]
    refine run_registerOperand_bind 1 fun r => ?_
    cases hv : m.memory.read (m.pc + 2) with
    | error f => simp only [EStateM.run_bind, run_operand, run_lift, hv, bind_error]
    | ok v =>
      show _ = m.carryOut out (.ldi r v)
      simp [hv, carryOut, refusal?, printed?, after, Opcode.width, Opcode.operandCount]
  | alu f =>
    simp only [execute, bind_assoc, Instr.decode]
    refine run_registerOperand_bind 1 fun a => run_registerOperand_bind 2 fun b => ?_
    show _ = m.carryOut out (.alu f a b)
    cases hn : f.number? (m.registers.get a).toNat (m.registers.get b).toNat with
    | none =>
      obtain rfl := AluOp.eq_cmp_of_number? hn
      simp [run_operate, AluOp.number?, carryOut, refusal?, printed?, after, Opcode.width,
        Opcode.operandCount]
    | some n =>
      by_cases h : f = .div ∧ m.registers.get b = 0
      · obtain ⟨rfl, hb⟩ := h
        simp [run_operate, AluOp.number?, hb, carryOut, refusal?]
      · simp [run_operate, hn, h, carryOut, refusal?_alu, printed?, after, Opcode.width,
          Opcode.operandCount]

theorem run_instruction [Sink σ] (m : Machine) (out : σ) :
    instruction.run (m, out) =
      match m.fetch with
      | .error f => .error f (m, out)
      | .ok i => m.carryOut out i := by
  unfold fetch
  simp only [instruction, EStateM.run_bind, run_machine, run_readMemory, run_lift]
  cases hb : m.memory.read m.pc with
  | error f => rfl
  | ok byte =>
    cases hd : Opcode.decode byte with
    | none => simp [hd, bind_ok]
    | some op =>
      simp only [hd, bind_ok]
      exact run_execute op m out

end Action
end ByteCpu
