import ByteCpu.Proofs.Machine.Semantics

/-!
Turns of the machine as a relation. The main statement says what a turn leaves that carries out an
instruction: the machine of the instruction table, and the printed line in the sink.
-/

set_option autoImplicit false

namespace ByteCpu.Machine

variable {σ : Type} [Sink σ]

theorem limitReached_eq_none_iff {m : Machine} {L : Nat} (limit : m.limit = some L) :
    m.limitReached = none ↔ m.steps < L := by
  simp [limitReached, limit]

/-- What a turn leaves: a halted machine stays, the limit stops it, the instruction is refused, it
is carried out, or the sink refuses the line that it prints. -/
inductive Turn (filter : Log.Filter) (m : Machine) (out : σ) : Outcome σ State → Prop
  | halted (state : m.state = .halted) : Turn filter m out ⟨.ok .halted, m, out, []⟩
  | stopped {limit : Nat} (state : m.state = .running) (reached : m.limitReached = some limit) :
      Turn filter m out ⟨.error (.stepLimitExceeded limit), m, out, []⟩
  | refused {f : Fault} (state : m.state = .running) (reached : m.limitReached = none)
      (next : m.next = .error f) :
      Turn filter m out ⟨.error f, m, out, filter.emit (.fetching m.snapshot)⟩
  | silent {i : Instr} (state : m.state = .running) (reached : m.limitReached = none)
      (next : m.next = .ok i) (printed : m.printed? i = none) :
      Turn filter m out
        ⟨.ok (m.after i).state, m.after i, out, filter.emit (.fetching m.snapshot)⟩
  | printed {i : Instr} {v : UInt8} {out' : σ} (state : m.state = .running)
      (reached : m.limitReached = none) (next : m.next = .ok i) (printed : m.printed? i = some v)
      (write : Sink.write out (printedLine v) = (out', true)) :
      Turn filter m out
        ⟨.ok (m.after i).state, m.after i, out', filter.emit (.fetching m.snapshot)⟩
  | unprinted {i : Instr} {v : UInt8} {out' : σ} (state : m.state = .running)
      (reached : m.limitReached = none) (next : m.next = .ok i) (printed : m.printed? i = some v)
      (write : Sink.write out (printedLine v) = (out', false)) :
      Turn filter m out ⟨.error .output, m, out', filter.emit (.fetching m.snapshot)⟩

theorem step_eq_of_running {filter : Log.Filter} {m : Machine} {out : σ}
    (state : m.state = .running) (reached : m.limitReached = none) :
    m.step filter out =
      let log := filter.emit (.fetching m.snapshot)
      match m.next with
      | .error f => ⟨.error f, m, out, log⟩
      | .ok i =>
        match m.carryOut out i with
        | .ok state (m', out') => ⟨.ok state, m', out', log⟩
        | .error f (m', out') => ⟨.error f, m', out', log⟩ := by
  have hi : Action.instruction (m, out) = _ := Action.run_instruction m out
  simp only [step, state, reached, hi, next]
  cases hf : m.fetch with
  | error f => rfl
  | ok i =>
    rw [bind_ok]
    cases hr : m.refusal? i with
    | none => cases m.carryOut out i <;> rfl
    | some f => simp only [carryOut, hr]

theorem turn_step (filter : Log.Filter) (m : Machine) (out : σ) :
    Turn filter m out (m.step filter out) := by
  cases hs : m.state with
  | halted =>
    simp only [step, hs]
    exact .halted hs
  | running =>
    cases hl : m.limitReached with
    | some limit =>
      simp only [step, hs, hl]
      exact .stopped hs hl
    | none =>
      rw [step_eq_of_running hs hl]
      cases hn : m.next with
      | error f => exact .refused hs hl hn
      | ok i =>
        have hr := (next_eq_ok_iff.1 hn).2
        cases hp : m.printed? i with
        | none =>
          simp only [carryOut, hr, hp]
          exact .silent hs hl hn hp
        | some v =>
          cases hw : Sink.write out (printedLine v) with
          | mk out' accepted =>
            cases accepted with
            | true =>
              simp only [carryOut, hr, hp, hw]
              exact .printed hs hl hn hp hw
            | false =>
              simp only [carryOut, hr, hp, hw]
              exact .unprinted hs hl hn hp hw

theorem step_eq_iff {filter : Log.Filter} {m : Machine} {out : σ} {o : Outcome σ State} :
    m.step filter out = o ↔ Turn filter m out o := by
  constructor
  · rintro rfl
    exact turn_step filter m out
  · intro h
    have h' := turn_step filter m out
    generalize m.step filter out = o' at h'
    cases h <;> cases h' <;> simp_all

theorem step_of_halted {filter : Log.Filter} {m : Machine} {out : σ} (state : m.state = .halted) :
    m.step filter out = ⟨.ok .halted, m, out, []⟩ :=
  step_eq_iff.2 (.halted state)

theorem step_error {filter : Log.Filter} {m : Machine} {out : σ} {f : Fault}
    (error : (m.step filter out).result = .error f) :
    m.state = .running ∧ (m.step filter out).machine = m ∧
      ((m.step filter out).sink = out ∨
        f = .output ∧ ∃ r, m.Holds (.prn r) ∧
          Sink.write out (printedLine (m.registers.get r)) =
            ((m.step filter out).sink, false)) := by
  have h := turn_step filter m out
  generalize m.step filter out = o at h error
  cases h with
  | halted => cases error
  | stopped state => exact ⟨state, rfl, .inl rfl⟩
  | refused state => exact ⟨state, rfl, .inl rfl⟩
  | silent => cases error
  | printed => cases error
  | unprinted state _ next printed write =>
    cases error
    obtain ⟨r, rfl, rfl⟩ := printed?_eq_some_iff.1 printed
    exact ⟨state, rfl, .inr ⟨rfl, r, (next_eq_ok_iff.1 next).1, write⟩⟩

theorem step_ok {filter : Log.Filter} {m : Machine} {out : σ} {s : State}
    (running : m.state = .running) (ok : (m.step filter out).result = .ok s) :
    ∃ i : Instr, m.limitReached = none ∧ m.next = .ok i ∧
      (m.step filter out).machine = m.after i ∧ s = (m.after i).state ∧
      match m.printed? i with
      | none => (m.step filter out).sink = out
      | some v => Sink.write out (printedLine v) = ((m.step filter out).sink, true) := by
  have h := turn_step filter m out
  generalize m.step filter out = o at h ok
  cases h with
  | halted state =>
    rw [running] at state
    cases state
  | stopped => cases ok
  | refused => cases ok
  | @silent i _ reached next printed =>
    cases ok
    exact ⟨i, reached, next, rfl, rfl, by rw [printed]⟩
  | @printed i v out' _ reached next printed write =>
    cases ok
    exact ⟨i, reached, next, rfl, rfl, by rw [printed]; exact write⟩
  | unprinted => cases ok

theorem step_ok_cases {filter : Log.Filter} {m : Machine} {out : σ} {s : State}
    (ok : (m.step filter out).result = .ok s) :
    m.state = .halted ∧ s = .halted ∧ (m.step filter out).machine = m ∧
        (m.step filter out).sink = out ∨
      m.state = .running ∧ m.limitReached = none ∧ s = (m.step filter out).machine.state ∧
        (m.step filter out).machine.steps = m.steps + 1 := by
  cases state : m.state with
  | halted =>
    rw [step_of_halted state] at ok ⊢
    cases ok
    exact .inl ⟨rfl, rfl, rfl, rfl⟩
  | running =>
    obtain ⟨i, reached, -, machine, hs, -⟩ := step_ok state ok
    exact .inr ⟨rfl, reached, by rw [machine, hs], by rw [machine, steps_after]⟩

theorem step_machine_cases (filter : Log.Filter) (m : Machine) (out : σ) :
    (m.step filter out).machine = m ∨
      ∃ i s, m.state = .running ∧ m.next = .ok i ∧ (m.step filter out).result = .ok s ∧
        (m.step filter out).machine = m.after i := by
  cases state : m.state with
  | halted => exact .inl (by rw [step_of_halted state])
  | running =>
    cases result : (m.step filter out).result with
    | error f => exact .inl (step_error result).2.1
    | ok s =>
      obtain ⟨i, -, next, machine, -⟩ := step_ok state result
      exact .inr ⟨i, s, rfl, next, rfl, machine⟩

theorem limit_step (filter : Log.Filter) (m : Machine) (out : σ) :
    (m.step filter out).machine.limit = m.limit := by
  have ht := turn_step filter m out
  generalize m.step filter out = o at ht
  cases ht with
  | halted | stopped | refused | unprinted => rfl
  | silent | printed => exact limit_after m _

/-- A turn that succeeds carries out the instruction at the program counter: the machine becomes
that of the instruction table, one step further, and a printed byte is in the sink as a decimal
line. -/
theorem step_ok_follows_table (filter : Log.Filter) {m : Machine} (out : σ) {s : State}
    (running : m.state = .running) (ok : (m.step filter out).result = .ok s) :
    ∃ i : Instr, m.Holds i ∧ (m.step filter out).machine = m.after i ∧
      (m.step filter out).machine.steps = m.steps + 1 ∧ s = (m.after i).state ∧
      match m.printed? i with
      | none => (m.step filter out).sink = out
      | some v =>
        Sink.write out (Text.decimal v.toNat ++ "\n") = ((m.step filter out).sink, true) := by
  obtain ⟨i, -, next, machine, state, sink⟩ := step_ok running ok
  exact ⟨i, (next_eq_ok_iff.1 next).1, machine, by rw [machine, steps_after], state, sink⟩

/-- A call to the stack pointer whose operand lies in the stack's next cell. -/
def callOverOperand : Machine where
  memory := (Memory.zeroed.set 0 Opcode.call.byte).set 1 Reg.sp.byte
  registers := Registers.initial.setSp 2

theorem callOverOperand_follows_table :
    callOverOperand.state = .running ∧
      (callOverOperand.step .silent ({} : Buffer)).result = .ok .running ∧
      (callOverOperand.step .silent ({} : Buffer)).machine.memory.get 1 = 2 ∧
      (callOverOperand.step .silent ({} : Buffer)).machine.pc = 1 := by
  have ok : (callOverOperand.step .silent ({} : Buffer)).result = .ok .running := by rfl
  obtain ⟨i, hi, hm, -⟩ := step_ok_follows_table .silent ({} : Buffer) rfl ok
  have hc : callOverOperand.Holds (.call .sp) := by decide +kernel
  obtain rfl := hi.unique hc
  rw [hm]
  exact ⟨rfl, ok, by decide +kernel, by decide +kernel⟩

end ByteCpu.Machine
