import ByteCpu.Proofs.Machine.Faults
import ByteCpu.Proofs.Machine.Writes

/-!
What instructions read. Two machines that differ in memory only, and there in no cell that is used,
do the same. The main statement is about turns and about runs of any length, where a cell is used
that some instruction reads before any has stored to it.
-/

set_option autoImplicit false

namespace ByteCpu

theorem Memory.read_congr {a b : Memory} {k : Nat}
    (same : ∀ c : UInt8, c.toNat = k → a.get c = b.get c) : a.read k = b.read k := by
  by_cases inside : k < 256
  · have number : (UInt8.ofNat k).toNat = k := UInt8.toNat_ofNat_of_lt' inside
    rw [← number, read_toNat, read_toNat, same _ number]
  · rw [read, read, dif_neg inside, dif_neg inside]

namespace Machine

/-- The bytes that a turn needs: the opcode, its operands as far as there are cells for them, and
the top of the stack if it is taken from there. A turn that fetches nothing needs none. -/
def uses (m : Machine) (a : UInt8) : Bool :=
  m.state = .running && m.limitReached.isNone &&
    (a.toNat = m.pc || m.opcode?.any fun op =>
      (m.pc < a.toNat && a.toNat < m.pc + op.width) ||
        ((op = .pop || op = .ret) && a = m.registers.sp))

section
variable {m : Machine} {a : UInt8}

theorem uses_of_toNat_eq (state : m.state = .running) (reached : m.limitReached = none)
    (here : a.toNat = m.pc) : m.uses a = true := by
  simp [uses, state, reached, here]

theorem uses_of_operand {op : Opcode} (state : m.state = .running) (reached : m.limitReached = none)
    (opcode : m.opcode? = some op) (behind : m.pc ≤ a.toNat) (within : a.toNat < m.pc + op.width) :
    m.uses a = true := by
  obtain here | before := Nat.eq_or_lt_of_le behind
  · exact uses_of_toNat_eq state reached here.symm
  · simp [uses, state, reached, opcode, before, within]

theorem uses_sp {i : Instr} (state : m.state = .running) (reached : m.limitReached = none)
    (holds : m.Holds i) (pops : i.pops = true) : m.uses m.registers.sp = true := by
  have opcode := holds.opcode?
  cases i with
  | pop | ret => simp [uses, state, reached, opcode, Instr.opcode]
  | _ => cases pops

end

structure Alike (m m' : Machine) : Prop where
  registers : m.registers = m'.registers
  pc : m.pc = m'.pc
  flags : m.flags = m'.flags
  state : m.state = m'.state
  steps : m.steps = m'.steps
  limit : m.limit = m'.limit

namespace Alike

variable {m m' : Machine} (alike : m.Alike m')
include alike

theorem limitReached : m.limitReached = m'.limitReached := by
  rw [Machine.limitReached, Machine.limitReached, alike.limit, alike.steps]

theorem refusal? (i : Instr) : m.refusal? i = m'.refusal? i := by
  cases i with
  | alu op a b => rw [refusal?_alu, refusal?_alu, alike.registers]
  | call => simp only [Machine.refusal?, alike.pc]
  | jeq | jne => simp only [Machine.refusal?, alike.flags]
  | hlt | ret | push | pop | prn | jmp | ldi => rfl

theorem printed? (i : Instr) : m.printed? i = m'.printed? i := by
  cases i with
  | prn => simp only [Machine.printed?, alike.registers]
  | hlt | ret | push | pop | call | jmp | jeq | jne | ldi | alu => rfl

theorem after {i : Instr}
    (top : i.pops = true → m.memory.get m.registers.sp = m'.memory.get m.registers.sp) :
    (m.after i).Alike (m'.after i) := by
  obtain ⟨memory, registers, pc, flags, state, steps, limit⟩ := m
  obtain ⟨memory', registers', pc', flags', state', steps', limit'⟩ := m'
  obtain ⟨rfl, rfl, rfl, rfl, rfl, rfl⟩ := alike
  cases i with
  | pop | ret =>
    have byte := top rfl
    dsimp only at byte
    constructor <;> simp only [Machine.after, byte]
  | alu op a b => cases op <;> exact ⟨rfl, rfl, rfl, rfl, rfl, rfl⟩
  | hlt | push | prn | call | jmp | jeq | jne | ldi => exact ⟨rfl, rfl, rfl, rfl, rfl, rfl⟩

theorem storedAt? (i : Instr) (after after' : Machine) (a : UInt8) :
    Occurrence.storedAt? a ⟨m, i, after⟩ = Occurrence.storedAt? a ⟨m', i, after'⟩ := by
  unfold Occurrence.storedAt? Occurrence.pushed?
  rw [alike.registers, alike.pc]

theorem fetch (state : m.state = .running) (reached : m.limitReached = none)
    (agree : ∀ a, m.uses a = true → m.memory.get a = m'.memory.get a) : m.fetch = m'.fetch := by
  have first : m.memory.read m.pc = m'.memory.read m.pc :=
    Memory.read_congr fun a here => agree a (uses_of_toNat_eq state reached here)
  unfold Machine.fetch
  rw [← alike.pc, ← first]
  cases byte : m.memory.read m.pc with
  | error f => rfl
  | ok b =>
    rw [bind_ok, bind_ok]
    cases decode : Opcode.decode b with
    | none => rfl
    | some op =>
      have opcode : m.opcode? = some op := by
        rw [opcode?, show m.cell? 0 = some b from Memory.read_eq_ok_iff.1 byte, Option.bind_some,
          decode]
      refine Instr.decode_congr fun k less => Memory.read_congr fun a here => ?_
      exact agree a (uses_of_operand state reached opcode (by omega) (by omega))

theorem next (state : m.state = .running) (reached : m.limitReached = none)
    (agree : ∀ a, m.uses a = true → m.memory.get a = m'.memory.get a) : m.next = m'.next := by
  unfold Machine.next
  rw [alike.fetch state reached agree]
  simp only [alike.refusal?]

end Alike

variable {σ : Type}

/-- What calls on two machines come to that take the same course. Both answer alike and carry out
the same instructions, which store the same bytes in the same cells. -/
structure SameCourse {α : Type} (m m' : Machine) (tr tr' : List Occurrence)
    (o o' : Outcome σ α) : Prop where
  result : o.result = o'.result
  sink : o.sink = o'.sink
  alike : o.machine.Alike o'.machine
  instrs : tr.map (·.instr) = tr'.map (·.instr)
  stores (a : UInt8) : tr.map (·.storedAt? a) = tr'.map (·.storedAt? a)
  memory (a : UInt8) :
    m.memory.get a = m'.memory.get a ∨ (∃ e ∈ tr, e.storedAt? a ≠ none) →
      o.machine.memory.get a = o'.machine.memory.get a

namespace SameCourse

theorem still {α : Type} {m m' : Machine} (alike : m.Alike m') (result : Except Fault α) (out : σ)
    (log log' : List Log.Event) :
    SameCourse m m' [] [] ⟨result, m, out, log⟩ ⟨result, m', out, log'⟩ where
  result := rfl
  sink := rfl
  alike := alike
  instrs := rfl
  stores _ := rfl
  memory a h := by
    obtain same | ⟨e, he, -⟩ := h
    · exact same
    · cases he

theorem carried {m m' : Machine} {i : Instr} (alike : m.Alike m')
    (top : i.pops = true → m.memory.get m.registers.sp = m'.memory.get m.registers.sp) (out : σ)
    (log log' : List Log.Event) :
    SameCourse m m' [⟨m, i, m.after i⟩] [⟨m', i, m'.after i⟩]
      ⟨.ok (m.after i).state, m.after i, out, log⟩
      ⟨.ok (m'.after i).state, m'.after i, out, log'⟩ where
  result := congrArg Except.ok (alike.after top).state
  sink := rfl
  alike := alike.after top
  instrs := rfl
  stores a := congrArg ([·]) (alike.storedAt? i _ _ a)
  memory a h := by
    have left := m.get_after i a
    have right := m'.get_after i a
    rw [alike.storedAt? i (m.after i) (m'.after i) a] at left
    cases stored : Occurrence.storedAt? a ⟨m', i, m'.after i⟩ with
    | some v =>
      rw [stored, Option.some_or, Option.some.injEq] at left right
      exact left.trans right.symm
    | none =>
      rw [stored, Option.none_or, Option.some.injEq] at left right
      obtain same | ⟨e, he, stores⟩ := h
      · rw [left, right, same]
      · obtain rfl := List.mem_singleton.1 he
        rw [alike.storedAt? i (m.after i) (m'.after i) a] at stores
        exact absurd stored stores

theorem trans {α β : Type} {m m' : Machine} {tr₁ tr₁' tr₂ tr₂' : List Occurrence}
    {o₁ o₁' : Outcome σ α} {o₂ o₂' : Outcome σ β} (first : SameCourse m m' tr₁ tr₁' o₁ o₁')
    (second : SameCourse o₁.machine o₁'.machine tr₂ tr₂' o₂ o₂') :
    SameCourse m m' (tr₁ ++ tr₂) (tr₁' ++ tr₂') o₂ o₂' where
  result := second.result
  sink := second.sink
  alike := second.alike
  instrs := by rw [List.map_append, List.map_append, first.instrs, second.instrs]
  stores a := by rw [List.map_append, List.map_append, first.stores, second.stores]
  memory a h := by
    refine second.memory a ?_
    obtain same | ⟨e, he, stores⟩ := h
    · exact .inl (first.memory a (.inl same))
    · obtain earlier | later := List.mem_append.1 he
      · exact .inl (first.memory a (.inr ⟨e, earlier, stores⟩))
      · exact .inr ⟨e, later, stores⟩

end SameCourse

variable [Sink σ] {filter : Log.Filter} {m m' : Machine} {out : σ}

theorem SameCourse.of_error {f : Fault} {out' : σ} {log log' : List Log.Event} (alike : m.Alike m')
    (left : m.step filter out = ⟨.error f, m, out', log⟩)
    (right : m'.step filter out = ⟨.error f, m', out', log'⟩) :
    SameCourse m m' (m.carriedOut filter out) (m'.carriedOut filter out) (m.step filter out)
      (m'.step filter out) := by
  rw [carriedOut_of_error (congrArg Outcome.result left),
    carriedOut_of_error (congrArg Outcome.result right), left, right]
  exact .still alike _ out' log log'

theorem sameCourse_step (alike : m.Alike m') (out : σ)
    (agree : ∀ a, m.uses a = true → m.memory.get a = m'.memory.get a) :
    SameCourse m m' (m.carriedOut filter out) (m'.carriedOut filter out) (m.step filter out)
      (m'.step filter out) := by
  cases state : m.state with
  | halted =>
    have state' := alike.state.symm.trans state
    rw [carriedOut_of_halted state, carriedOut_of_halted state', step_of_halted state,
      step_of_halted state']
    exact .still alike _ out [] []
  | running =>
    have state' := alike.state.symm.trans state
    cases reached : m.limitReached with
    | some limit =>
      have reached' := alike.limitReached.symm.trans reached
      exact .of_error alike (step_eq_iff.2 (.stopped state reached))
        (step_eq_iff.2 (.stopped state' reached'))
    | none =>
      have reached' := alike.limitReached.symm.trans reached
      have same := alike.next state reached agree
      cases next : m.next with
      | error f =>
        have next' := same.symm.trans next
        exact .of_error alike (step_eq_iff.2 (.refused state reached next))
          (step_eq_iff.2 (.refused state' reached' next'))
      | ok i =>
        have next' := same.symm.trans next
        have carried (out' : σ) (accepts : Sink.Accepts out (m.printed? i) out') :
            SameCourse m m' (m.carriedOut filter out) (m'.carriedOut filter out)
              (m.step filter out) (m'.step filter out) := by
          have left := step_of_accepts filter state reached next accepts
          rw [alike.printed? i] at accepts
          have right := step_of_accepts filter state' reached' next' accepts
          rw [carriedOut_of_ok state next (congrArg Outcome.result left),
            carriedOut_of_ok state' next' (congrArg Outcome.result right), left, right]
          have holds := (next_eq_ok_iff.1 next).1
          exact .carried alike (fun pops => agree _ (uses_sp state reached holds pops)) out' _ _
        cases printed : m.printed? i with
        | none => exact carried out (by rw [printed]; rfl)
        | some v =>
          have printed' := (alike.printed? i).symm.trans printed
          cases write : Sink.write out (printedLine v) with
          | mk out' accepted =>
            cases accepted with
            | true => exact carried out' (by rw [printed]; exact write)
            | false =>
              exact .of_error alike (step_eq_iff.2 (.unprinted state reached next printed write))
                (step_eq_iff.2 (.unprinted state' reached' next' printed' write))

/-- The byte that a cell holds at the beginning is used in so many turns: one of them uses the cell,
and none before it has stored to it. -/
def usedIn (filter : Log.Filter) (a : UInt8) : Nat → Machine → σ → Bool
  | 0, _, _ => false
  | turns + 1, m, out =>
    m.uses a ||
      match m.step filter out with
      | ⟨.ok .running, m', out', _⟩ =>
        (m.carriedOut filter out).all (fun e => (e.storedAt? a).isNone) &&
          usedIn filter a turns m' out'
      | _ => false

end Machine

def Progress.outcome {σ : Type} : Progress σ → Outcome σ (Option Nat)
  | .ended o => ⟨o.result.map some, o.machine, o.sink, o.log⟩
  | .paused m out log => ⟨.ok none, m, out, log⟩

namespace Machine

variable {σ : Type} {filter : Log.Filter} {m m' : Machine} {out : σ}

theorem SameCourse.ended? {tr tr' : List Occurrence} {p p' : Progress σ}
    (h : SameCourse m m' tr tr' p.outcome p'.outcome) :
    Option.Rel (SameCourse m m' tr tr') p.ended? p'.ended? := by
  have result := h.result
  cases p with
  | paused =>
    cases p' with
    | paused => exact .none
    | ended o' => cases answer : o'.result <;> simp [Progress.outcome, answer, Except.map] at result
  | ended o =>
    cases p' with
    | paused => cases answer : o.result <;> simp [Progress.outcome, answer, Except.map] at result
    | ended o' =>
      have same : o.result = o'.result := by
        cases left : o.result <;> cases right : o'.result <;>
          simp_all [Progress.outcome, Except.map]
      exact .some ⟨same, h.sink, h.alike, h.instrs, h.stores, h.memory⟩

variable [Sink σ]

theorem sameCourse_finish (alike : m.Alike m') (out : σ) (log log' : Array Log.Event) :
    SameCourse m m' [] [] (Progress.ended (finish filter m out log)).outcome
      (Progress.ended (finish filter m' out log')).outcome := by
  unfold finish
  rw [alike.steps]
  cases Sink.flush out with
  | mk out' accepted => cases accepted <;> exact .still alike _ out' _ _

theorem sameCourse_proceed {turns : Nat} (alike : m.Alike m')
    (agree : ∀ a, usedIn filter a turns m out = true → m.memory.get a = m'.memory.get a)
    (log log' : Array Log.Event) :
    SameCourse m m' (executed filter turns m out) (executed filter turns m' out)
      (proceed filter turns m out log).outcome (proceed filter turns m' out log').outcome := by
  induction turns generalizing m m' out log log' with
  | zero => exact .still alike _ out _ _
  | succ turns ih =>
    have first : SameCourse m m' (m.carriedOut filter out) (m'.carriedOut filter out)
        (m.step filter out) (m'.step filter out) := by
      refine sameCourse_step alike out fun a uses => agree a ?_
      rw [usedIn, uses, Bool.true_or]
    unfold executed proceed
    unfold usedIn at agree
    cases left : m.step filter out with
    | mk result m₁ out₁ events =>
      cases right : m'.step filter out with
      | mk result' m₁' out₁' events' =>
        rw [left, right] at first
        rw [left] at agree
        obtain rfl : result = result' := first.result
        obtain rfl : out₁ = out₁' := first.sink
        have alike₁ : m₁.Alike m₁' := first.alike
        cases result with
        | error f => exact first.trans (.still alike₁ _ out₁ _ _)
        | ok s =>
          cases s with
          | halted => exact first.trans (sameCourse_finish alike₁ out₁ _ _)
          | running =>
            refine first.trans (ih alike₁ (fun a used => ?_) _ _)
            -- A byte used later is one from before this turn, or one that the turn has stored.
            refine first.memory a ?_
            by_cases stored : ∃ e ∈ m.carriedOut filter out, e.storedAt? a ≠ none
            · exact .inr stored
            · refine .inl (agree a ?_)
              have kept :
                  (m.carriedOut filter out).all (fun e => (e.storedAt? a).isNone) = true := by
                simpa using stored
              simp [kept, used]

/-- What a step does not name has no part in it. Two machines that differ in memory only, and in no
cell that the turn uses, take the same turn; and they take the same course in any number of turns,
and in a run, if they differ in no byte that is used on the way. -/
theorem unused_memory_has_no_part (alike : m.Alike m') (filter : Log.Filter) (out : σ) :
    ((∀ a, m.uses a = true → m.memory.get a = m'.memory.get a) →
      SameCourse m m' (m.carriedOut filter out) (m'.carriedOut filter out) (m.step filter out)
        (m'.step filter out)) ∧
    (∀ turns,
      (∀ a, usedIn filter a turns m out = true → m.memory.get a = m'.memory.get a) →
      ∀ log, SameCourse m m' (executed filter turns m out) (executed filter turns m' out)
        (proceed filter turns m out log).outcome (proceed filter turns m' out log).outcome) ∧
    ((∀ a, usedIn filter a m.turnsNeeded m out = true → m.memory.get a = m'.memory.get a) →
      Option.Rel (SameCourse m m' (m.runTrace filter out) (m'.runTrace filter out))
        (m.run? filter out) (m'.run? filter out)) := by
  refine ⟨fun agree => sameCourse_step alike out agree,
    fun turns agree log => sameCourse_proceed alike agree log log, fun agree => ?_⟩
  have needed : m.turnsNeeded = m'.turnsNeeded := by
    rw [turnsNeeded, turnsNeeded, alike.limit, alike.steps]
  have course := sameCourse_proceed alike agree (filter.emit (.running m.pc)).toArray
    (filter.emit (.running m'.pc)).toArray
  unfold run? runTrace
  rw [← needed]
  exact course.ended?

def popsAndPrints : Machine :=
  let m := loaded [Opcode.pop.byte, 0, Opcode.prn.byte, 0, Opcode.hlt.byte]
  { m with memory := m.memory.set Registers.spStart 12 }

def popsAndPrintsToo : Machine :=
  { popsAndPrints with memory := popsAndPrints.memory.set 5 0xFF }

theorem popsAndPrints_has_no_other_part :
    popsAndPrints.Alike popsAndPrintsToo ∧
      popsAndPrints.memory.get 5 ≠ popsAndPrintsToo.memory.get 5 ∧
      (popsAndPrintsToo.step .silent ({} : Buffer)).machine.registers.get 0 = 12 ∧
      ∃ o, popsAndPrintsToo.run? .silent ({} : Buffer) = some o ∧ o.result = .ok 3 ∧
        o.sink.text = "12\n" := by
  have alike : popsAndPrints.Alike popsAndPrintsToo := ⟨rfl, rfl, rfl, rfl, rfl, rfl⟩
  have agree (used : UInt8 → Bool) (unused : used 5 = false) (a : UInt8) (h : used a = true) :
      popsAndPrints.memory.get a = popsAndPrintsToo.memory.get a := by
    have elsewhere : 5 ≠ a := by
      rintro rfl
      cases h.symm.trans unused
    exact (Memory.get_set_of_ne _ _ elsewhere).symm
  obtain ⟨turn, -, course⟩ := unused_memory_has_no_part alike .silent ({} : Buffer)
  have popped := (turn (agree _ (by decide +kernel))).alike.registers
  have same := course (agree _ (by decide +kernel))
  have ends : (popsAndPrints.run? .silent ({} : Buffer)).map
      (fun o => (o.result.toOption, o.sink.text)) = some (some 3, "12\n") := by
    decide +kernel
  obtain ⟨o, run, shape⟩ := Option.map_eq_some_iff.1 ends
  obtain ⟨three, text⟩ := Prod.mk.inj shape
  have answers : o.result = .ok 3 := by
    cases result : o.result with
    | ok n => simpa [result, Except.toOption] using three
    | error f => simp [result, Except.toOption] at three
  rw [run] at same
  cases run' : popsAndPrintsToo.run? .silent ({} : Buffer) with
  | none =>
    rw [run'] at same
    cases same
  | some o' =>
    rw [run'] at same
    cases same with
    | some h =>
      refine ⟨alike, by decide +kernel, ?_, o', rfl, h.result.symm.trans answers, ?_⟩
      · rw [← popped]
        decide +kernel
      · exact (congrArg Buffer.text h.sink).symm.trans text

end Machine
end ByteCpu
