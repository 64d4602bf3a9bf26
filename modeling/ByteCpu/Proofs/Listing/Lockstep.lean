import ByteCpu.Proofs.Listing.Sweep
import ByteCpu.Proofs.Machine.Counter
import ByteCpu.Proofs.Machine.Stack

/-!
Listings against the machine. At the address of a line the machine does what the line shows, and
what it does there is told by the line, the registers, the flags, the top of the stack and the sink.
-/

set_option autoImplicit false

namespace ByteCpu

theorem Memory.HoldsAt.middle {mem : Memory} {front bs back : List UInt8}
    (h : mem.HoldsAt 0 (front ++ bs ++ back)) : mem.HoldsAt front.length bs := by
  obtain ⟨rest, whole⟩ := h
  refine ⟨back ++ rest, ?_⟩
  rw [List.drop_zero] at whole
  rw [← whole]
  simp

theorem Memory.HoldsAt.read {mem : Memory} {a k : Nat} {bs : List UInt8} {b : UInt8}
    (h : mem.HoldsAt a bs) (hb : bs[k]? = some b) : mem.read (a + k) = .ok b := by
  obtain ⟨rest, whole⟩ := h
  obtain ⟨inside, -⟩ := List.getElem?_eq_some_iff.1 hb
  rw [read_eq_ok_iff, ← List.getElem?_drop, ← whole, List.getElem?_append_left inside, hb]

/-- What an instruction leaves: registers, program counter, flags and state, and the byte that it
puts on the stack. -/
structure Effect where
  registers : Registers
  pc : Nat
  flags : Option Flags
  state : State
  pushed : Option UInt8
  deriving DecidableEq, Repr

def Effect.on (e : Effect) (m : Machine) : Machine := { m with
  memory := match e.pushed with
    | none => m.memory
    | some v => m.memory.set e.registers.sp v
  registers := e.registers
  pc := e.pc
  flags := e.flags
  state := e.state
  steps := m.steps + 1 }

namespace Machine

variable {σ : Type} [Sink σ]

def effect (m : Machine) (i : Instr) : Effect where
  registers := (m.after i).registers
  pc := (m.after i).pc
  flags := (m.after i).flags
  state := (m.after i).state
  pushed := Occurrence.pushed? ⟨m, i, m.after i⟩

@[simp] theorem effect_on (m : Machine) (i : Instr) : (m.effect i).on m = m.after i := by
  cases i with
  | push | call => simp [effect, Effect.on, after, Occurrence.pushed?]
  | alu op a b => cases op <;> rfl
  | hlt | ret | pop | prn | jmp | jeq | jne | ldi => rfl

/-- A machine at an address of which no more is known than the registers, the flags and the top of
the stack. -/
def bare (address : Nat) (registers : Registers) (flags : Option Flags) (top : UInt8) : Machine where
  memory := Memory.zeroed.set registers.sp top
  registers := registers
  pc := address
  flags := flags

def outline (m : Machine) : Machine :=
  bare m.pc m.registers m.flags (m.memory.get m.registers.sp)

theorem refusal?_outline (m : Machine) (i : Instr) : m.outline.refusal? i = m.refusal? i := by
  cases i <;> rfl

theorem printed?_outline (m : Machine) (i : Instr) : m.outline.printed? i = m.printed? i := by
  cases i <;> rfl

theorem effect_outline {m : Machine} (running : m.state = .running) (i : Instr) :
    m.outline.effect i = m.effect i := by
  have top : m.outline.memory.get m.registers.sp = m.memory.get m.registers.sp :=
    Memory.get_set_self _ _ _
  obtain ⟨memory, registers, pc, flags, state, steps, limit⟩ := m
  cases running
  cases i with
  | pop | ret => simp only [effect, after, Occurrence.pushed?, outline, bare] at top ⊢; rw [top]
  | alu op a b => cases op <;> rfl
  | hlt | push | call | prn | jmp | jeq | jne | ldi => rfl

def reply (m : Machine) (out : σ) (i : Instr) : Except Fault Effect × σ :=
  match m.carryOut out i with
  | .ok _ (_, out') => (.ok (m.effect i), out')
  | .error f (_, out') => (.error f, out')

theorem carryOut_eq_reply {m : Machine} (running : m.state = .running) (out : σ) (i : Instr) :
    m.carryOut out i = match m.outline.reply out i with
      | (.ok e, out') => .ok e.state (e.on m, out')
      | (.error f, out') => .error f (m, out') := by
  unfold reply carryOut
  rw [refusal?_outline, printed?_outline]
  cases m.refusal? i with
  | some f => rfl
  | none =>
    cases m.printed? i with
    | none =>
      simp only [effect_outline running, effect_on]
      rfl
    | some v =>
      dsimp only
      cases Sink.write out (printedLine v) with
      | mk out' accepted =>
        cases accepted with
        | false => rfl
        | true =>
          simp only [effect_outline running, effect_on]
          rfl

theorem step_of_fetch {filter : Log.Filter} {m : Machine} {out : σ} {i : Instr}
    (running : m.state = .running) (reached : m.limitReached = none) (fetch : m.fetch = .ok i) :
    m.step filter out =
      let log := filter.emit (.fetching m.snapshot)
      match m.outline.reply out i with
      | (.ok e, out') => ⟨.ok e.state, e.on m, out', log⟩
      | (.error f, out') => ⟨.error f, m, out', log⟩ := by
  have hi : Action.instruction (m, out) = _ := Action.run_instruction m out
  simp only [step, running, reached, hi, fetch, carryOut_eq_reply running]
  rcases m.outline.reply out i with ⟨f | e, out'⟩ <;> rfl

theorem step_of_fetch_error {filter : Log.Filter} {m : Machine} {out : σ} {f : Fault}
    (running : m.state = .running) (reached : m.limitReached = none) (fetch : m.fetch = .error f) :
    m.step filter out = ⟨.error f, m, out, filter.emit (.fetching m.snapshot)⟩ := by
  refine step_eq_iff.2 (.refused running reached ?_)
  rw [next, fetch, bind_error]

end Machine

namespace Listing

variable {σ : Type} [Sink σ]

def Line.byteAt (l : Line) (k : Nat) : Except Fault UInt8 :=
  match l.bytes[k]? with
  | some b => .ok b
  | none => .error (.memoryOutOfRange (l.address + k))

/-- What a machine does at an instruction, given the line that shows it, the registers, the flags,
the top of the stack and the sink. -/
def Line.turn (l : Line) (op : Opcode) (registers : Registers) (flags : Option Flags) (top : UInt8)
    (out : σ) : Except Fault Effect × σ :=
  match Instr.decode l.byteAt op with
  | .error f => (.error f, out)
  | .ok i => (Machine.bare l.address registers flags top).reply out i

/-- A machine that runs and has a step left, with a program in memory, at the address of a line. -/
structure StandsAt (program : List UInt8) (l : Line) (m : Machine) : Prop where
  running : m.state = .running
  reached : m.limitReached = none
  program : m.memory.HoldsAt 0 program
  pc : m.pc = l.address

section
variable {program : List UInt8} {l : Line} {m : Machine}

theorem StandsAt.holds (line : l ∈ ofProgram program) (stands : StandsAt program l m) :
    m.memory.HoldsAt m.pc l.bytes := by
  obtain ⟨before, after, cut⟩ := List.append_of_mem line
  have tiles := tiles_ofProgram program
  have whole := tiles.bytes
  have held := stands.program
  rw [cut, List.flatMap_append, List.flatMap_cons, ← List.append_assoc] at whole
  rw [← whole] at held
  rw [stands.pc, tiles.address before l after cut, sum_map_length]
  exact held.middle

theorem StandsAt.first {b : UInt8} (line : l ∈ ofProgram program) (stands : StandsAt program l m)
    (byte : program[l.address]? = some b) : m.memory.read m.pc = .ok b := by
  have shows := (tiles_ofProgram program).shows l line
  exact (stands.holds line).read (k := 0) (shows.head?_bytes.trans byte)

theorem StandsAt.opcode_eq {b : UInt8} {op : Opcode} {i : Instr} (line : l ∈ ofProgram program)
    (stands : StandsAt program l m) (byte : program[l.address]? = some b)
    (decode : Opcode.decode b = some op) (holds : m.Holds i) : i.opcode = op := by
  have found : m.memory.read m.pc = .ok i.opcode.byte := holds.read (k := 0) rfl
  rw [stands.first line byte] at found
  cases found
  simpa using decode

theorem StandsAt.fetch_of_instruction {op : Opcode} (line : l ∈ ofProgram program)
    (stands : StandsAt program l m) (kind : l.kind = .instruction op) :
    m.fetch = Instr.decode l.byteAt op := by
  have shows := (tiles_ofProgram program).shows l line
  have inside := shows.inside
  have decode := ((shows.instruction_iff op).1 kind).1
  have operands (k : Nat) (hk : k < op.width) : m.memory.read (m.pc + k) = l.byteAt k := by
    rw [← shows.length_bytes kind] at hk
    have byte := List.getElem?_eq_getElem hk
    rw [(stands.holds line).read byte, Line.byteAt, byte]
  unfold Machine.fetch
  rw [stands.first line (List.getElem?_eq_getElem inside), bind_ok, decode]
  exact Instr.decode_congr operands

theorem StandsAt.fetch_of_data {b : UInt8} (line : l ∈ ofProgram program)
    (stands : StandsAt program l m) (byte : program[l.address]? = some b)
    (unknown : Opcode.decode b = none) : m.fetch = .error (.unknownOpcode b l.address) := by
  unfold Machine.fetch
  rw [stands.first line byte, bind_ok, unknown, stands.pc]

theorem StandsAt.bytes_eq {op : Opcode} {i : Instr} (line : l ∈ ofProgram program)
    (stands : StandsAt program l m) (kind : l.kind = .instruction op) (holds : m.Holds i) :
    i.opcode = op ∧ i.bytes = l.bytes := by
  have shows := (tiles_ofProgram program).shows l line
  have inside := shows.inside
  have decode := ((shows.instruction_iff op).1 kind).1
  have same := stands.opcode_eq line (List.getElem?_eq_getElem inside) decode holds
  have length : i.bytes.length = l.bytes.length := by
    rw [Instr.length_bytes, same, shows.length_bytes kind]
  have begins : i.bytes <+: l.bytes :=
    List.prefix_of_prefix_length_le holds (stands.holds line) (Nat.le_of_eq length)
  exact ⟨same, begins.eq_of_length length⟩

theorem next_address {before after : List Line}
    (cut : ofProgram program = before ++ l :: after) :
    l.address + l.bytes.length = (after.head?.map (·.address)).getD program.length := by
  have tiles := tiles_ofProgram program
  have here := tiles.address before l after cut
  cases after with
  | nil =>
    have whole := congrArg List.length tiles.bytes
    rw [cut, ← sum_map_length, List.map_append, List.sum_append] at whole
    simpa [here] using whole
  | cons n after =>
    have next := tiles.address (before ++ [l]) n after (by rw [cut]; simp)
    simp [next, here]

theorem StandsAt.error_of_cut {b : UInt8} {op : Opcode} {filter : Log.Filter} {out : σ}
    (line : l ∈ ofProgram program) (stands : StandsAt program l m) (kind : l.kind = .data)
    (bytes : l.bytes = [b]) (decode : Opcode.decode b = some op) (full : program.length = 256) :
    ∃ f, (m.step filter out).result = .error f := by
  cases result : (m.step filter out).result with
  | error f => exact ⟨f, rfl⟩
  | ok s =>
    have shows := (tiles_ofProgram program).shows l line
    have byte : program[l.address]? = some b := by rw [← shows.head?_bytes, bytes]; rfl
    obtain ⟨i, -, next, -⟩ := Machine.step_ok stands.running result
    have holds := (Machine.next_eq_ok_iff.1 next).1
    have fits := holds.pc_add_width_le
    rw [stands.opcode_eq line byte decode holds, stands.pc, ← full] at fits
    obtain ⟨inside, first⟩ := List.getElem?_eq_some_iff.1 byte
    have shown := (shows.instruction_iff op).2 ⟨by rw [first, decode], fits⟩
    rw [kind] at shown
    cases shown

end

/-- At the address of a line the machine meets what the line shows. A byte that is no opcode is
refused there. An instruction is carried out with the operands of the line, with an effect that the
line, the registers, the flags, the top of the stack and the sink tell, and unless it halts the
machine or sets the program counter, the machine goes on at the next line, or behind the program. An
opcode that the end of memory cuts off from its operands is refused. -/
theorem listing_agrees_with_machine {program : List UInt8} {l : Line} {m : Machine}
    (line : l ∈ ofProgram program) (stands : StandsAt program l m) (filter : Log.Filter) (out : σ) :
    (∀ b, l.kind = .data → l.bytes = [b] → Opcode.decode b = none →
      (m.step filter out).result = .error (.unknownOpcode b l.address)) ∧
    (∀ op, l.kind = .instruction op →
      (∃ log, m.step filter out =
        match l.turn op m.registers m.flags (m.memory.get m.registers.sp) out with
        | (.ok effect, out') => ⟨.ok effect.state, effect.on m, out', log⟩
        | (.error f, out') => ⟨.error f, m, out', log⟩) ∧
      ∀ s, (m.step filter out).result = .ok s →
        ∃ i, i.opcode = op ∧ i.bytes = l.bytes ∧ (m.step filter out).machine = m.after i ∧
          (i ≠ .hlt → m.jumps i = false →
            (m.step filter out).machine.pc = l.address + l.bytes.length)) ∧
    (∀ before after, ofProgram program = before ++ l :: after →
      l.address + l.bytes.length = (after.head?.map (·.address)).getD program.length) ∧
    (∀ b op, l.kind = .data → l.bytes = [b] → Opcode.decode b = some op → program.length = 256 →
      ∃ f, (m.step filter out).result = .error f) := by
  have shows := (tiles_ofProgram program).shows l line
  refine ⟨fun b kind bytes unknown => ?_, fun op kind => ⟨?_, fun s ok => ?_⟩,
    fun before after cut => next_address cut,
    fun b op kind bytes decode full => stands.error_of_cut line kind bytes decode full⟩
  · have byte : program[l.address]? = some b := by rw [← shows.head?_bytes, bytes]; rfl
    rw [Machine.step_of_fetch_error stands.running stands.reached
      (stands.fetch_of_data line byte unknown)]
  · have fetch := stands.fetch_of_instruction line kind
    unfold Line.turn
    cases decode : Instr.decode l.byteAt op with
    | error f =>
      rw [decode] at fetch
      exact ⟨_, Machine.step_of_fetch_error stands.running stands.reached fetch⟩
    | ok i =>
      rw [decode] at fetch
      rw [← stands.pc]
      exact ⟨_, Machine.step_of_fetch stands.running stands.reached fetch⟩
  · obtain ⟨i, -, next, machine, -⟩ := Machine.step_ok stands.running ok
    have holds := (Machine.next_eq_ok_iff.1 next).1
    obtain ⟨opcode, bytes⟩ := stands.bytes_eq line kind holds
    refine ⟨i, opcode, bytes, machine, fun other stays => ?_⟩
    rw [machine, Machine.pc_after_of_not_jumps stays other, stands.pc, ← bytes, Instr.length_bytes]

def pushThenData : List UInt8 := [Opcode.push.byte, 7, 0xFF]

def afterPush : Machine := ((Machine.loaded pushThenData).step .silent ({} : Buffer)).machine

theorem pushThenData_agrees_with_machine :
    StandsAt pushThenData ⟨0, [Opcode.push.byte, 7], .instruction .push⟩
        (Machine.loaded pushThenData) ∧
      afterPush.pc = 2 ∧ afterPush.memory.get 0xF3 = 0xF3 ∧
      StandsAt pushThenData ⟨2, [0xFF], .data⟩ afterPush ∧
      (afterPush.step .silent ({} : Buffer)).result = .error (.unknownOpcode 0xFF 2) := by
  have swept : ofProgram pushThenData =
      [⟨0, [Opcode.push.byte, 7], .instruction .push⟩, ⟨2, [0xFF], .data⟩] := by
    decide +kernel
  have start : StandsAt pushThenData ⟨0, [Opcode.push.byte, 7], .instruction .push⟩
      (Machine.loaded pushThenData) :=
    ⟨rfl, rfl, by decide +kernel, rfl⟩
  obtain ⟨quiet, running, free, held, pushed⟩ :
      Fault.of? ((Machine.loaded pushThenData).step .silent ({} : Buffer)).result = none ∧
        afterPush.state = .running ∧ afterPush.limitReached = none ∧
        afterPush.memory.HoldsAt 0 pushThenData ∧ afterPush.memory.get 0xF3 = 0xF3 := by
    decide +kernel
  obtain ⟨-, shown, -⟩ :=
    listing_agrees_with_machine (by simp [swept]) start .silent ({} : Buffer)
  have pc : afterPush.pc = 2 := by
    unfold afterPush
    cases result : ((Machine.loaded pushThenData).step .silent ({} : Buffer)).result with
    | error f =>
      rw [result] at quiet
      cases quiet
    | ok s =>
      obtain ⟨i, opcode, -, -, next⟩ := (shown .push rfl).2 s result
      have isPush : i ≠ .hlt ∧ (Machine.loaded pushThenData).jumps i = false := by
        cases i <;> cases opcode
        exact ⟨by simp, rfl⟩
      exact next isPush.1 isPush.2
  have second : StandsAt pushThenData ⟨2, [0xFF], .data⟩ afterPush := ⟨running, free, held, pc⟩
  obtain ⟨unknown, -⟩ := listing_agrees_with_machine (by simp [swept]) second .silent ({} : Buffer)
  exact ⟨start, pc, pushed, second, unknown 0xFF rfl rfl (by decide)⟩

end Listing
end ByteCpu
