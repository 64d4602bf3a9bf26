import ByteCpu.Machine.Step

/-!
Runs: turns of the machine until it halts or a fault stops it. `proceed` makes at most a given
number of turns and can be taken up again where it paused; `run?` gives a run as many turns as it
can need.
-/

set_option autoImplicit false

namespace ByteCpu

inductive Progress (σ : Type) where
  | ended (o : Outcome σ Nat)
  | paused (m : Machine) (out : σ) (log : List Log.Event)

namespace Progress

variable {σ : Type}

def ended? : Progress σ → Option (Outcome σ Nat)
  | ended o => some o
  | paused .. => none

end Progress

namespace Machine

variable {σ : Type} [Sink σ]

def finish (filter : Log.Filter) (m : Machine) (out : σ) (log : Array Log.Event) :
    Outcome σ Nat :=
  match Sink.flush out with
  | (out', true) => ⟨.ok m.steps, m, out', (log ++ filter.emit (.halted m.steps)).toList⟩
  | (out', false) => ⟨.error .output, m, out', log.toList⟩

def proceed (filter : Log.Filter) : Nat → Machine → σ → Array Log.Event → Progress σ
  | 0, m, out, log => .paused m out log.toList
  | turns + 1, m, out, log =>
    match m.step filter out with
    | ⟨.error fault, m', out', events⟩ =>
      .ended ⟨.error fault, m', out', (log ++ events).toList⟩
    | ⟨.ok .halted, m', out', events⟩ => .ended (finish filter m' out' (log ++ events))
    | ⟨.ok .running, m', out', events⟩ => proceed filter turns m' out' (log ++ events)

/-- The turns that a run can need: the steps left and one turn more to notice that none is. Without
a limit the 64 bits of the step counter bound them. -/
def turnsNeeded (m : Machine) : Nat := m.limit.getD (Text.wordMax + 1) - m.steps + 1

/-- A run to its end; a run without a limit may have none. -/
def run? (filter : Log.Filter) (m : Machine) (out : σ) : Option (Outcome σ Nat) :=
  (proceed filter m.turnsNeeded m out (filter.emit (.running m.pc)).toArray).ended?

end Machine
end ByteCpu
