import ByteCpu.Log.Filter
import ByteCpu.Machine.Execute

/-!
One turn of the machine with a sink and a log. A turn that fails leaves the machine and the sink as
the instruction left them when it met the fault.
-/

set_option autoImplicit false

namespace ByteCpu

structure Outcome (σ α : Type) where
  result : Except Fault α
  machine : Machine
  sink : σ
  log : List Log.Event

namespace Machine

variable {σ : Type} [Sink σ]

/-- A halted machine stays halted whatever its limit; the limit is checked before an instruction
is fetched, and only a fetch is traced. -/
def step (filter : Log.Filter) (m : Machine) (out : σ) : Outcome σ State :=
  match m.state, m.limitReached with
  | .halted, _ => ⟨.ok .halted, m, out, []⟩
  | .running, some limit => ⟨.error (.stepLimitExceeded limit), m, out, []⟩
  | .running, none =>
    let log := filter.emit (.fetching m.snapshot)
    match Action.instruction (m, out) with
    | .ok state (m', out') => ⟨.ok state, m', out', log⟩
    | .error fault (m', out') => ⟨.error fault, m', out', log⟩

end Machine
end ByteCpu
