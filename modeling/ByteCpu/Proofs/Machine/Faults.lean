import ByteCpu.Proofs.Machine.Calls

/-!
Causes of faults, in the order in which a turn looks for them. The main statement is that a turn of
a reachable machine fails just when one of them is at hand, and then with the first.
-/

set_option autoImplicit false

namespace ByteCpu

/-- A register operand must name a register; a value is any byte. -/
inductive OperandKind where
  | register
  | value
  deriving DecidableEq, Repr

def Opcode.operandKinds : Opcode → List OperandKind
  | hlt | ret => []
  | push | pop | prn | call | jmp | jeq | jne => [.register]
  | ldi => [.register, .value]
  | alu _ => [.register, .register]

theorem Opcode.length_operandKinds (op : Opcode) : op.operandKinds.length = op.operandCount := by
  cases op <;> rfl

namespace Fault

/-- Only the address after the last cell is missing, and every operation is supported. -/
def Reportable : Fault → Prop
  | .memoryOutOfRange a => a = 256
  | .unsupportedOperation _ => False
  | _ => True

theorem reportable_or {x y : Option Fault} (hx : ∀ f ∈ x, f.Reportable)
    (hy : ∀ f ∈ y, f.Reportable) : ∀ f ∈ x.or y, f.Reportable := by
  intro f h
  obtain h | ⟨-, h⟩ := Option.or_eq_some_iff.1 h
  · exact hx f h
  · exact hy f h

end Fault

namespace Machine

variable {σ : Type} [Sink σ]

def cell? (m : Machine) (k : Nat) : Option UInt8 := m.memory.toList[m.pc + k]?

def named? (m : Machine) (k : Nat) : Option UInt8 := do
  m.registers.toList[(← m.cell? k).toNat]?

def opcode? (m : Machine) : Option Opcode := (m.cell? 0).bind Opcode.decode

def limitFault? (m : Machine) : Option Fault := do
  let limit ← m.limit
  if limit ≤ m.steps then some (.stepLimitExceeded limit) else none

def counterFault? (m : Machine) : Option Fault :=
  if m.pc = 256 then some (.memoryOutOfRange 256) else none

def opcodeFault? (m : Machine) : Option Fault := do
  let byte ← m.cell? 0
  if m.opcode? = none then some (.unknownOpcode byte m.pc) else none

def operandFault? (m : Machine) (k : Nat) (kind : OperandKind) : Option Fault :=
  match m.cell? k, kind with
  | none, _ => some (.memoryOutOfRange 256)
  | some b, .register => if b.toNat < 8 then none else some (.registerOutOfRange b)
  | some _, .value => none

def operandsFaultFrom? (m : Machine) (k : Nat) : List OperandKind → Option Fault
  | [] => none
  | kind :: kinds => (m.operandFault? k kind).or (m.operandsFaultFrom? (k + 1) kinds)

def operandsFault? (m : Machine) : Option Fault :=
  m.opcode?.bind fun op => m.operandsFaultFrom? 1 op.operandKinds

def lineFault? (out : σ) (v : UInt8) : Option Fault :=
  if (Sink.write out (printedLine v)).2 then none else some .output

def demandFault? (m : Machine) (out : σ) : Option Fault :=
  m.opcode?.bind fun
    | .alu .div => if m.named? 2 = some 0 then some .divisionByZero else none
    | .call => if m.pc = 254 then some (.memoryOutOfRange 256) else none
    | .jeq | .jne => if m.flags = none then some .flagsUninitialized else none
    | .prn => (m.named? 1).bind (lineFault? out)
    | _ => none

/-- The first cause of a fault: the limit, the program counter, the opcode, the operands, and last
what the instruction demands. -/
def firstFault? (m : Machine) (out : σ) : Option Fault :=
  m.limitFault?.or <| m.counterFault?.or <| m.opcodeFault?.or <| m.operandsFault?.or <|
    m.demandFault? out

theorem limitFault?_eq (m : Machine) : m.limitFault? = m.limitReached.map .stepLimitExceeded := by
  unfold limitFault? limitReached
  cases m.limit with
  | none => rfl
  | some limit =>
    by_cases h : limit ≤ m.steps
    · simp [Option.filter, h]
    · simp [Option.filter, h]

theorem lt_of_cell? {m : Machine} {k : Nat} {b : UInt8} (h : m.cell? k = some b) :
    m.pc + k < 256 := by
  obtain ⟨hl, -⟩ := List.getElem?_eq_some_iff.1 h
  rwa [Memory.length_toList] at hl

theorem le_of_no_cell {m : Machine} {k : Nat} (h : m.cell? k = none) : 256 ≤ m.pc + k := by
  have hl := List.getElem?_eq_none_iff.1 h
  rwa [Memory.length_toList] at hl

theorem read_eq_of_cell? {m : Machine} {k : Nat} {b : UInt8} (h : m.cell? k = some b) :
    m.memory.read (m.pc + k) = .ok b :=
  Memory.read_eq_ok_iff.2 h

theorem read_eq_of_no_cell {m : Machine} {k : Nat} (hk : m.pc + k ≤ 256)
    (h : m.cell? k = none) : m.memory.read (m.pc + k) = .error (.memoryOutOfRange 256) := by
  have hl := le_of_no_cell h
  have he : m.pc + k = 256 := by omega
  rw [he]
  rfl

theorem of?_read {m : Machine} {k : Nat} (hk : m.pc + k ≤ 256) :
    Fault.of? (m.memory.read (m.pc + k)) = m.operandFault? k .value := by
  unfold operandFault?
  cases hc : m.cell? k with
  | none =>
    rw [read_eq_of_no_cell hk hc]
    rfl
  | some b =>
    rw [read_eq_of_cell? hc]
    rfl

theorem of?_registerAt {m : Machine} {k : Nat} (hk : m.pc + k ≤ 256) :
    Fault.of? (Instr.registerAt (fun k => m.memory.read (m.pc + k)) k) =
      m.operandFault? k .register := by
  unfold operandFault? Instr.registerAt
  dsimp only
  cases hc : m.cell? k with
  | none =>
    rw [read_eq_of_no_cell hk hc]
    rfl
  | some b =>
    rw [read_eq_of_cell? hc, bind_ok]
    unfold Reg.ofByte
    by_cases h : b.toNat < 8
    · simp [h, Fault.of?]
    · simp [h, Fault.of?]

/-- The second operand is looked at when the first is in order, so that its cell is missing only at
address 256. -/
theorem of?_decode {m : Machine} (hk : m.pc + 1 ≤ 256) (op : Opcode) :
    Fault.of? (Instr.decode (fun k => m.memory.read (m.pc + k)) op) =
      m.operandsFaultFrom? 1 op.operandKinds := by
  have first := of?_registerAt hk
  have second {r : Reg} (hr : Instr.registerAt (fun k => m.memory.read (m.pc + k)) 1 = .ok r) :
      m.pc + 2 ≤ 256 := by
    have hc : m.cell? 1 = some r.byte :=
      Memory.read_eq_ok_iff.1 (Instr.registerAt_eq_ok_iff.1 hr)
    have hl := lt_of_cell? hc
    omega
  cases op with
  | hlt | ret => rfl
  | push | pop | prn | call | jmp | jeq | jne =>
    simp only [Instr.decode, Fault.of?_map, Opcode.operandKinds, operandsFaultFrom?, Option.or_none]
    exact first
  | ldi =>
    simp only [Instr.decode, Opcode.operandKinds, operandsFaultFrom?, Option.or_none, ← first]
    cases hr : Instr.registerAt (fun k => m.memory.read (m.pc + k)) 1 with
    | error f => rfl
    | ok r =>
      rw [← of?_read (second hr), bind_ok]
      exact Fault.of?_map _ _
  | alu f =>
    simp only [Instr.decode, Opcode.operandKinds, operandsFaultFrom?, Option.or_none, ← first]
    cases hr : Instr.registerAt (fun k => m.memory.read (m.pc + k)) 1 with
    | error f => rfl
    | ok r =>
      rw [← of?_registerAt (second hr), bind_ok]
      exact Fault.of?_map _ _

theorem of?_fetch {m : Machine} (hpc : m.pc ≤ 256) :
    Fault.of? m.fetch = (m.counterFault?.or <| m.opcodeFault?.or m.operandsFault?) := by
  unfold fetch counterFault? opcodeFault? operandsFault? opcode?
  cases hc : m.cell? 0 with
  | none =>
    have hl := le_of_no_cell hc
    have he : m.pc = 256 := by omega
    have hr : m.memory.read m.pc = .error (.memoryOutOfRange 256) :=
      read_eq_of_no_cell (k := 0) hpc hc
    rw [hr, if_pos he]
    rfl
  | some byte =>
    have hr : m.memory.read m.pc = .ok byte := read_eq_of_cell? hc
    have hl := lt_of_cell? hc
    have hne : ¬m.pc = 256 := by omega
    rw [hr, bind_ok, if_neg hne, Option.none_or]
    cases hd : Opcode.decode byte with
    | none => simp [hd, Fault.of?]
    | some op =>
      simp only [of?_decode hl]
      simp [hd]

theorem Holds.cell? {m : Machine} {i : Instr} (h : m.Holds i) {k : Nat} {b : UInt8}
    (hb : i.bytes[k]? = some b) : m.cell? k = some b := by
  obtain ⟨rest, hrest⟩ := h
  obtain ⟨hl, -⟩ := List.getElem?_eq_some_iff.1 hb
  unfold Machine.cell?
  rw [← List.getElem?_drop, ← hrest, List.getElem?_append_left hl, hb]

theorem Holds.named? {m : Machine} {i : Instr} (h : m.Holds i) {k : Nat} {r : Reg}
    (hr : i.bytes[k]? = some r.byte) : m.named? k = some (m.registers.get r) := by
  unfold Machine.named?
  rw [h.cell? hr]
  simp [Registers.toList, Registers.get]

theorem Holds.opcode? {m : Machine} {i : Instr} (h : m.Holds i) : m.opcode? = some i.opcode := by
  unfold Machine.opcode?
  rw [h.cell? rfl]
  exact Opcode.decode_byte _

theorem Holds.demandFault? {m : Machine} {i : Instr} (h : m.Holds i) (out : σ) :
    m.demandFault? out = (m.refusal? i).or ((m.printed? i).bind (lineFault? out)) := by
  unfold Machine.demandFault?
  rw [h.opcode?, Option.bind_some]
  cases i with
  | hlt | ret | push | pop | jmp | ldi => rfl
  | jeq | jne =>
    simp only [Instr.opcode, refusal?, printed?, Option.bind_none, Option.or_none]
  | prn r =>
    have hr : m.named? 1 = some (m.registers.get r) := h.named? rfl
    simp only [Instr.opcode, refusal?, printed?, hr, Option.none_or]
  | call r =>
    have hw : m.pc + 2 ≤ 256 := h.pc_add_width_le
    simp only [Instr.opcode, refusal?, printed?]
    by_cases hc : m.pc = 254
    · simp [hc]
    · have hlt : m.pc + 2 < 256 := by omega
      simp [hc, hlt]
  | alu op a b =>
    cases op with
    | div =>
      have hb : m.named? 2 = some (m.registers.get b) := h.named? rfl
      simp only [Instr.opcode, refusal?, printed?, hb, Option.some.injEq, Option.bind_none,
        Option.or_none]
    | add | sub | mul | cmp => rfl

theorem of?_step (filter : Log.Filter) {m : Machine} (out : σ) (hpc : m.pc ≤ 256)
    (running : m.state = .running) :
    Fault.of? (m.step filter out).result = m.firstFault? out := by
  unfold firstFault?
  rw [limitFault?_eq]
  cases hl : m.limitReached with
  | some limit =>
    rw [step_eq_iff.2 (.stopped running hl)]
    rfl
  | none =>
    have chain : (m.counterFault?.or <| m.opcodeFault?.or <| m.operandsFault?.or <|
        m.demandFault? out) = (Fault.of? m.fetch).or (m.demandFault? out) := by
      rw [of?_fetch hpc, Option.or_assoc, Option.or_assoc]
    rw [Option.map_none, Option.none_or, chain, step_eq_of_running running hl]
    unfold next
    cases hf : m.fetch with
    | error f => rfl
    | ok i =>
      rw [(fetch_eq_ok_iff.1 hf).demandFault?]
      unfold carryOut lineFault?
      cases hr : m.refusal? i with
      | some f => simp [Fault.of?, bind_ok, hr]
      | none =>
        cases hp : m.printed? i with
        | none => simp [Fault.of?, bind_ok, hr, hp]
        | some v =>
          cases hw : Sink.write out (printedLine v) with
          | mk out' accepted => cases accepted <;> simp [Fault.of?, bind_ok, hr, hp, hw]

theorem operandFault?_reportable (m : Machine) (k : Nat) (kind : OperandKind) :
    ∀ f ∈ m.operandFault? k kind, f.Reportable := by
  intro f h
  unfold operandFault? at h
  cases hc : m.cell? k with
  | none =>
    rw [hc] at h
    cases h
    rfl
  | some b =>
    cases kind with
    | register =>
      rw [hc] at h
      dsimp only at h
      split at h
      · cases h
      · cases h
        trivial
    | value =>
      rw [hc] at h
      cases h

theorem operandsFaultFrom?_reportable (m : Machine) (k : Nat) (kinds : List OperandKind) :
    ∀ f ∈ m.operandsFaultFrom? k kinds, f.Reportable := by
  induction kinds generalizing k with
  | nil => nofun
  | cons kind kinds ih => exact Fault.reportable_or (m.operandFault?_reportable k kind) (ih (k + 1))

theorem demandFault?_reportable (m : Machine) (out : σ) :
    ∀ f ∈ m.demandFault? out, f.Reportable := by
  intro f h
  obtain ⟨op, -, hf⟩ := Option.bind_eq_some_iff.1 h
  split at hf
  case h_5 =>
    obtain ⟨v, -, hv⟩ := Option.bind_eq_some_iff.1 hf
    grind [Fault.Reportable, lineFault?]
  all_goals grind [Fault.Reportable]

theorem firstFault?_reportable (m : Machine) (out : σ) :
    ∀ f ∈ m.firstFault? out, f.Reportable := by
  have limit : ∀ f ∈ m.limitFault?, f.Reportable := by
    rw [limitFault?_eq]
    intro f h
    obtain ⟨n, -, rfl⟩ := Option.map_eq_some_iff.1 h
    trivial
  have counter : ∀ f ∈ m.counterFault?, f.Reportable := by
    unfold counterFault?
    grind [Fault.Reportable]
  have opcode : ∀ f ∈ m.opcodeFault?, f.Reportable := by
    intro f h
    obtain ⟨byte, -, hf⟩ := Option.bind_eq_some_iff.1 h
    grind [Fault.Reportable]
  have operands : ∀ f ∈ m.operandsFault?, f.Reportable := by
    intro f h
    obtain ⟨op, -, hf⟩ := Option.bind_eq_some_iff.1 h
    exact m.operandsFaultFrom?_reportable 1 op.operandKinds f hf
  exact Fault.reportable_or limit <| Fault.reportable_or counter <| Fault.reportable_or opcode <|
    Fault.reportable_or operands (m.demandFault?_reportable out)

end Machine

namespace Action

variable {σ α : Type}

def Total (x : Action σ α) : Prop := ∀ s, ∃ a s', x.run s = .ok a s'

theorem total_push (r : Reg) : (push r.byte : Action σ Unit).Total := fun s => ⟨_, _, run_push r s⟩

theorem total_pop (r : Reg) : (pop r.byte : Action σ Unit).Total := fun s => ⟨_, _, run_pop r s⟩

theorem total_call (r : Reg) (back : UInt8) : (call r.byte back : Action σ Unit).Total :=
  fun s => ⟨_, _, run_call r back s⟩

theorem total_ret : (ret : Action σ Unit).Total := fun s => ⟨_, _, run_ret s⟩

end Action

namespace Machine

variable {σ : Type} [Sink σ]

/-- A turn of a reachable machine that runs fails just when a cause is at hand, and with the first.
An address that it reports is that after the last cell, it never reports an unsupported operation,
and the stack instructions fail in nothing that they do once their operand names a register. -/
theorem step_reports_first_fault (filter : Log.Filter) {m : Machine} (out : σ)
    (reachable : Reachable m) (running : m.state = .running) :
    (∀ f, (m.step filter out).result = .error f ↔ m.firstFault? out = some f) ∧
    (∀ a, (m.step filter out).result = .error (.memoryOutOfRange a) → a = 256) ∧
    (∀ name, (m.step filter out).result ≠ .error (.unsupportedOperation name)) ∧
    (∀ index back : UInt8, index.toNat < 8 →
      (Action.push index : Action σ Unit).Total ∧ (Action.pop index : Action σ Unit).Total ∧
        (Action.call index back : Action σ Unit).Total ∧ (Action.ret : Action σ Unit).Total) := by
  have first (f : Fault) :
      (m.step filter out).result = .error f ↔ m.firstFault? out = some f := by
    rw [← Fault.of?_eq_some_iff, of?_step filter out reachable.pc_le running]
  refine ⟨first, fun a h => ?_, fun name h => ?_, fun index back h => ?_⟩
  · exact m.firstFault?_reportable out _ ((first _).1 h)
  · exact m.firstFault?_reportable out _ ((first _).1 h)
  · have hb : index = Reg.byte ⟨index.toNat, h⟩ := by simp [Reg.byte]
    rw [hb]
    exact ⟨Action.total_push _, Action.total_pop _, Action.total_call _ _, Action.total_ret⟩

def endsInComparison : List UInt8 :=
  [Opcode.ldi.byte, 0, 254, Opcode.jmp.byte, 0] ++ List.replicate 249 0 ++
    [(Opcode.alu .cmp).byte, 9]

def atComparison : Machine :=
  let m := ((loaded endsInComparison).step .silent ({} : Buffer)).machine
  (m.step .silent ({} : Buffer)).machine

theorem atComparison_reports_first_fault :
    Reachable atComparison ∧ atComparison.state = .running ∧
      (atComparison.step .silent ({} : Buffer)).result = .error (.registerOutOfRange 9) ∧
      ((atComparison.withLimit (some 2)).step .silent ({} : Buffer)).result =
        .error (.stepLimitExceeded 2) := by
  have load : withProgram endsInComparison = .ok (loaded endsInComparison) :=
    withProgram_eq_ok_iff.2 ⟨by decide +kernel, rfl⟩
  have one := (Calls.refl : Calls (loaded endsInComparison) [] [] _).step .silent ({} : Buffer)
  have two := one.step .silent ({} : Buffer)
  have reachable : Reachable atComparison := ⟨_, _, _, .inr ⟨_, load⟩, two⟩
  have limited : Reachable (atComparison.withLimit (some 2)) :=
    ⟨_, _, _, .inr ⟨_, load⟩, two.limit (some 2)⟩
  have running : atComparison.state = .running := by decide +kernel
  have ninth : atComparison.firstFault? ({} : Buffer) = some (.registerOutOfRange 9) := by
    decide +kernel
  have limit : (atComparison.withLimit (some 2)).firstFault? ({} : Buffer) =
      some (.stepLimitExceeded 2) := by
    decide +kernel
  have first := (step_reports_first_fault .silent ({} : Buffer) reachable running).1
  have still : (atComparison.withLimit (some 2)).state = .running := by decide +kernel
  have stopped := (step_reports_first_fault .silent ({} : Buffer) limited still).1
  exact ⟨reachable, running, (first _).2 ninth, (stopped _).2 limit⟩

end Machine
end ByteCpu
