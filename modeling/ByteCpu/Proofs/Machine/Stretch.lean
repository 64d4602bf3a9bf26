import ByteCpu.Machine.Run
import ByteCpu.Proofs.Machine.Trace

/-!
Stretches: instructions carried out one after another with one sink. The main statement is that a
run carries out a stretch and then ends, with the machine halted or at a fault.
-/

set_option autoImplicit false

namespace ByteCpu

/-- The sink agrees to the line of a printed byte, and stays as it is if none is printed. -/
def Sink.Accepts {σ : Type} [Sink σ] (out : σ) (printed : Option UInt8) (out' : σ) : Prop :=
  match printed with
  | none => out' = out
  | some v => Sink.write out (printedLine v) = (out', true)

def Occurrence.printed? (e : Occurrence) : Option UInt8 := e.before.printed? e.instr

def printedBytes (tr : List Occurrence) : List UInt8 := tr.filterMap (·.printed?)

theorem printedBytes_append (tr tr' : List Occurrence) :
    printedBytes (tr ++ tr') = printedBytes tr ++ printedBytes tr' := List.filterMap_append

theorem printedBytes_singleton (e : Occurrence) : printedBytes [e] = e.printed?.toList := by
  cases h : e.printed? <;> simp [printedBytes, h]

namespace Machine

variable {σ : Type} [Sink σ]

theorem step_of_accepts (filter : Log.Filter) {m : Machine} {out out' : σ} {i : Instr}
    (state : m.state = .running) (reached : m.limitReached = none) (next : m.next = .ok i)
    (accepts : Sink.Accepts out (m.printed? i) out') :
    m.step filter out =
      ⟨.ok (m.after i).state, m.after i, out', filter.emit (.fetching m.snapshot)⟩ := by
  rw [step_eq_iff]
  cases printed : m.printed? i with
  | none =>
    rw [printed] at accepts
    cases accepts
    exact .silent state reached next printed
  | some v =>
    rw [printed] at accepts
    exact .printed state reached next printed accepts

/-- Instructions carried out one after another with one sink. -/
inductive Stretch (m₀ : Machine) (out₀ : σ) : List Occurrence → Machine → σ → Prop
  | refl : Stretch m₀ out₀ [] m₀ out₀
  | instr {tr : List Occurrence} {m : Machine} {out out' : σ} {i : Instr}
      (before : Stretch m₀ out₀ tr m out) (state : m.state = .running)
      (reached : m.limitReached = none) (next : m.next = .ok i)
      (accepts : Sink.Accepts out (m.printed? i) out') :
      Stretch m₀ out₀ (tr ++ [⟨m, i, m.after i⟩]) (m.after i) out'

namespace Stretch

variable {m₀ m : Machine} {out₀ out : σ} {tr : List Occurrence}

theorem steps (h : Stretch m₀ out₀ tr m out) : m.steps = m₀.steps + tr.length := by
  induction h with
  | refl => rfl
  | instr _ _ _ _ _ ih =>
    rw [steps_after, ih, List.length_append, List.length_singleton]
    omega

theorem prints {P : List UInt8 → σ → Prop} (h : Stretch m₀ out₀ tr m out) (start : P [] out₀)
    (line : ∀ vs v out out', P vs out → Sink.write out (printedLine v) = (out', true) →
      P (vs ++ [v]) out') : P (printedBytes tr) out := by
  induction h with
  | refl => exact start
  | @instr tr m out out' i _ _ _ _ accepts ih =>
    rw [printedBytes_append, printedBytes_singleton, Occurrence.printed?]
    cases printed : m.printed? i with
    | none =>
      rw [printed] at accepts
      cases accepts
      rwa [Option.toList_none, List.append_nil]
    | some v =>
      rw [printed] at accepts
      exact line _ v out out' ih accepts

end Stretch

/-- How a run ends: the machine has halted and the sink is flushed, or a turn fails. -/
inductive Ending (filter : Log.Filter) (m : Machine) (out : σ) : Except Fault Nat → σ → Prop
  | halted {out' : σ} (state : m.state = .halted) (flush : Sink.flush out = (out', true)) :
      Ending filter m out (.ok m.steps) out'
  | unflushed {out' : σ} (state : m.state = .halted) (flush : Sink.flush out = (out', false)) :
      Ending filter m out (.error .output) out'
  | fault {f : Fault} (state : m.state = .running) (step : (m.step filter out).result = .error f) :
      Ending filter m out (.error f) (m.step filter out).sink

theorem ending_finish {filter : Log.Filter} {m : Machine} {out : σ} {log : Array Log.Event}
    (state : m.state = .halted) :
    (finish filter m out log).machine = m ∧
      Ending filter m out (finish filter m out log).result (finish filter m out log).sink := by
  unfold finish
  cases hf : Sink.flush out with
  | mk out' accepted =>
    cases accepted with
    | true => exact ⟨rfl, .halted state hf⟩
    | false => exact ⟨rfl, .unflushed state hf⟩

/-- What at most so many turns carry out, up to the first that fails or finds the machine halted. -/
def executed (filter : Log.Filter) : Nat → Machine → σ → List Occurrence
  | 0, _, _ => []
  | turns + 1, m, out =>
    m.carriedOut filter out ++
      match m.step filter out with
      | ⟨.ok .running, m', out', _⟩ => executed filter turns m' out'
      | _ => []

def runTrace (filter : Log.Filter) (m : Machine) (out : σ) : List Occurrence :=
  executed filter m.turnsNeeded m out

theorem stretch_proceed {filter : Log.Filter} {turns : Nat} {m₀ m : Machine} {out₀ out : σ}
    {tr : List Occurrence} {log : Array Log.Event} {o : Outcome σ Nat}
    (before : Stretch m₀ out₀ tr m out) (h : proceed filter turns m out log = .ended o) :
    ∃ out', Stretch m₀ out₀ (tr ++ executed filter turns m out) o.machine out' ∧
      Ending filter o.machine out' o.result o.sink := by
  -- The stretch so far is what the induction carries: each turn that succeeds makes it longer.
  induction turns generalizing tr m out log with
  | zero => cases h
  | succ turns ih =>
    unfold proceed at h
    unfold executed
    cases state : m.state with
    | halted =>
      rw [step_of_halted state] at h ⊢
      cases h
      rw [carriedOut_of_halted state, List.append_nil, List.append_nil, (ending_finish state).1]
      exact ⟨out, before, (ending_finish state).2⟩
    | running =>
      cases hs : m.step filter out with
      | mk result m' out' events =>
        rw [hs] at h
        cases result with
        | error f =>
          cases h
          have error : (m.step filter out).result = .error f := by rw [hs]
          have same : m' = m := by simpa [hs] using (step_error error).2.1
          have ending := Ending.fault state error
          rw [hs] at ending
          rw [carriedOut_of_error error, List.append_nil, List.append_nil, same]
          exact ⟨out, before, ending⟩
        | ok s =>
          have ok : (m.step filter out).result = .ok s := by rw [hs]
          obtain ⟨i, reached, next, machine, hstate, accepts⟩ := step_ok state ok
          have whole := carriedOut_of_ok state next ok
          rw [hs] at machine accepts whole
          subst machine
          have after : Stretch m₀ out₀ _ (m.after i) out' :=
            before.instr state reached next accepts
          rw [whole]
          cases s with
          | halted =>
            cases h
            rw [List.append_nil, (ending_finish hstate.symm).1]
            exact ⟨out', after, (ending_finish hstate.symm).2⟩
          | running =>
            rw [← List.append_assoc]
            exact ih after h

theorem stretch_run {filter : Log.Filter} {m : Machine} {out : σ} {o : Outcome σ Nat}
    (h : m.run? filter out = some o) :
    ∃ out', Stretch m out (m.runTrace filter out) o.machine out' ∧
      Ending filter o.machine out' o.result o.sink := by
  unfold run? at h
  generalize hp : proceed filter m.turnsNeeded m out _ = p at h
  cases p with
  | paused => cases h
  | ended o' =>
    cases h
    exact stretch_proceed .refl hp

end Machine
end ByteCpu
