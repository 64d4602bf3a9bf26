import ByteCpu.Proofs.Machine.Sinks
import ByteCpu.Proofs.Machine.Stretch

/-!
Runs as turns that succeed and one end. The main statement says what a call leaves that fails: the
machine as it was before the instruction that failed, and of that instruction's output at most a
part.
-/

set_option autoImplicit false

namespace ByteCpu.Machine

variable {σ τ : Type} [Sink σ] [Sink τ]

/-- A new machine with a program in memory from address 0 on, as far as it fits. -/
def loaded (program : List UInt8) : Machine where
  memory := ⟨.ofFn fun i => program[i.val]?.getD 0⟩

theorem withProgram_eq_ok_iff {program : List UInt8} {m : Machine} :
    withProgram program = .ok m ↔ program.length ≤ 256 ∧ loaded program = m := by
  have zeroed (i : Fin 256) : Memory.zeroed.cells[i] = 0 := Vector.getElem_replicate i.isLt
  unfold withProgram Memory.load
  simp only [zeroed]
  by_cases h : program.length ≤ 256
  · rw [if_pos h]
    exact ⟨fun hm => ⟨h, Except.ok.inj hm⟩, fun hm => congrArg Except.ok hm.2⟩
  · rw [if_neg h]
    constructor
    · intro hm
      cases hm
    · intro hm
      exact absurd hm.1 h

/-- The machine and the sink after `n` turns that all succeed. -/
def steps? (filter : Log.Filter) : Nat → Machine → σ → Option (Machine × σ)
  | 0, m, out => some (m, out)
  | n + 1, m, out =>
    match m.step filter out with
    | ⟨.ok _, m', out', _⟩ => steps? filter n m' out'
    | ⟨.error _, _, _, _⟩ => none

theorem steps?_add (filter : Log.Filter) (k n : Nat) (m : Machine) (out : σ) :
    steps? filter (k + n) m out =
      (steps? filter k m out).bind fun s => steps? filter n s.1 s.2 := by
  induction k generalizing m out with
  | zero => simp [steps?]
  | succ k ih =>
    rw [Nat.succ_add]
    simp only [steps?]
    cases m.step filter out with
    | mk result m' out' log =>
      cases result with
      | ok s => exact ih m' out'
      | error f => rfl

theorem steps?_succ_iff {filter : Log.Filter} {n : Nat} {m m' : Machine} {out out' : σ} :
    steps? filter (n + 1) m out = some (m', out') ↔
      (∃ s, (m.step filter out).result = .ok s) ∧
        steps? filter n (m.step filter out).machine (m.step filter out).sink = some (m', out') := by
  simp only [steps?]
  cases m.step filter out with
  | mk result m₁ out₁ log => cases result <;> simp

theorem steps?_induction {filter : Log.Filter} {P : Machine → σ → Prop} {n : Nat}
    {m m' : Machine} {out out' : σ}
    (step : ∀ m out s, (m.step filter out).result = .ok s → P m out →
      P (m.step filter out).machine (m.step filter out).sink)
    (h : steps? filter n m out = some (m', out')) (start : P m out) : P m' out' := by
  induction n generalizing m out with
  | zero =>
    cases h
    exact start
  | succ n ih =>
    obtain ⟨⟨s, ok⟩, rest⟩ := steps?_succ_iff.1 h
    exact ih rest (step m out s ok start)

theorem steps?_of_stretch {filter : Log.Filter} {m₀ m : Machine} {out₀ out : σ}
    {tr : List Occurrence} (h : Stretch m₀ out₀ tr m out) :
    steps? filter tr.length m₀ out₀ = some (m, out) := by
  induction h with
  | refl => rfl
  | instr _ state reached next accepts ih =>
    rw [List.length_append, List.length_singleton, steps?_add, ih, Option.bind_some, steps?,
      step_of_accepts filter state reached next accepts]
    rfl

theorem exists_stretch_of_steps? {filter : Log.Filter} {n : Nat} {m m' : Machine} {out out' : σ}
    (h : steps? filter n m out = some (m', out')) : ∃ tr, Stretch m out tr m' out' := by
  refine steps?_induction (P := fun m₁ out₁ => ∃ tr, Stretch m out tr m₁ out₁) ?_ h ⟨[], .refl⟩
  rintro m₁ out₁ s ok ⟨tr, before⟩
  cases state : m₁.state with
  | halted =>
    rw [step_of_halted state]
    exact ⟨tr, before⟩
  | running =>
    obtain ⟨i, reached, next, machine, -, accepts⟩ := step_ok state ok
    rw [machine]
    exact ⟨_, before.instr state reached next accepts⟩

theorem ending_run {filter : Log.Filter} {m : Machine} {out : σ} {o : Outcome σ Nat}
    (h : m.run? filter out = some o) :
    ∃ n m' out', steps? filter n m out = some (m', out') ∧ m'.steps = m.steps + n ∧
      o.machine = m' ∧ Ending filter m' out' o.result o.sink := by
  obtain ⟨out', stretch, ending⟩ := stretch_run h
  exact ⟨_, _, out', steps?_of_stretch stretch, stretch.steps, rfl, ending⟩

/-- A failed turn keeps the machine and all that is in the sink; a refused line alone may have left
a first part there. A failed run has carried out some instructions whole, and it either stands on
the instruction that failed, still running, or has halted and could not flush the sink. -/
theorem failed_call_keeps_machine (filter : Log.Filter) (m : Machine) (out : σ) :
    (∀ f, (m.step filter out).result = .error f →
      (m.step filter out).machine = m ∧
        ((m.step filter out).sink = out ∨
          f = .output ∧ ∃ r, m.Holds (.prn r) ∧
            Sink.write out (printedLine (m.registers.get r)) = ((m.step filter out).sink, false) ∧
            ∀ view : Sink.View σ, ∃ part, part <+: (printedLine (m.registers.get r)).toList ∧
              view.text (m.step filter out).sink = view.text out ++ String.ofList part)) ∧
    (∀ o f, m.run? filter out = some o → o.result = .error f →
      ∃ n m' out', steps? filter n m out = some (m', out') ∧ m'.steps = m.steps + n ∧
        o.machine = m' ∧
        (m'.state = .running ∧ (m'.step filter out').result = .error f ∧
            o.sink = (m'.step filter out').sink ∨
          m'.state = .halted ∧ f = .output ∧ Sink.flush out' = (o.sink, false))) := by
  constructor
  · intro f hf
    obtain ⟨-, hm, hs | ⟨rfl, r, hi, hw⟩⟩ := step_error hf
    · exact ⟨hm, .inl hs⟩
    · exact ⟨hm, .inr ⟨rfl, r, hi, hw, fun view => view.text_of_refused hw⟩⟩
  · intro o f ho hf
    obtain ⟨n, m', out', hn, hc, hm, he⟩ := ending_run ho
    refine ⟨n, m', out', hn, hc, hm, ?_⟩
    rw [hf] at he
    generalize o.sink = sink at he
    cases he with
    | unflushed state flush => exact .inr ⟨state, rfl, flush⟩
    | fault state step => exact .inl ⟨state, step, rfl⟩

def twelve : List UInt8 := [Opcode.ldi.byte, 0, 12, Opcode.prn.byte, 0, Opcode.hlt.byte]

def narrow : Buffer := { room := some 1 }

theorem failed_call_keeps_twelve :
    ∃ o, (loaded twelve).run? .silent narrow = some o ∧ o.result = .error .output ∧
      o.machine.pc = 3 ∧ o.machine.steps = 1 ∧ o.sink.text = "1" ∧
      ∃ n m' out', steps? .silent n (loaded twelve) narrow = some (m', out') ∧
        m'.steps = (loaded twelve).steps + n ∧ o.machine = m' ∧
        (m'.state = .running ∧ (m'.step .silent out').result = .error .output ∧
            o.sink = (m'.step .silent out').sink ∨
          m'.state = .halted ∧ Fault.output = .output ∧ Sink.flush out' = (o.sink, false)) := by
  have fails : ((loaded twelve).run? .silent narrow).map
      (fun o => (Fault.of? o.result, o.machine.pc, o.machine.steps, o.sink.text)) =
        some (some .output, 3, 1, "1") := by
    decide +kernel
  obtain ⟨o, run, ends⟩ := Option.map_eq_some_iff.1 fails
  simp only [Prod.mk.injEq, Fault.of?_eq_some_iff] at ends
  obtain ⟨error, pc, steps, text⟩ := ends
  exact ⟨o, run, error, pc, steps, text,
    (failed_call_keeps_machine .silent (loaded twelve) narrow).2 o .output run error⟩

end ByteCpu.Machine
