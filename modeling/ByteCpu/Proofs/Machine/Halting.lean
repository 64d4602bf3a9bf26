import ByteCpu.Proofs.Machine.Counter
import ByteCpu.Proofs.Machine.Limits

/-!
Halting and flushing. The main statement is that a run flushes its sink just once if it halts, after
all that it writes, and not at all if it ends in a fault, and that a halted machine stays as it is
under any calls.
-/

set_option autoImplicit false

namespace ByteCpu

namespace Sink.Event

def isFlush : Event → Bool
  | write _ _ => false
  | flush _ => true

theorem not_isFlush_of_mem_ofLines {vs : List UInt8} {e : Event} (h : e ∈ ofLines vs) :
    e.isFlush = false := by
  obtain ⟨v, -, rfl⟩ := List.mem_map.1 h
  rfl

end Sink.Event

namespace Machine

variable {σ τ : Type} [Sink σ] [Sink τ] {filter : Log.Filter}

theorem Stretch.events {m₀ m : Machine} {r₀ r : Recorder σ} {tr : List Occurrence}
    (h : Stretch m₀ r₀ tr m r) : r.events = r₀.events ++ Sink.Event.ofLines (printedBytes tr) := by
  refine h.prints (P := fun vs r => r.events = r₀.events ++ Sink.Event.ofLines vs)
    (List.append_nil _).symm ?_
  intro vs v r r' before write
  rw [Recorder.events_of_write write, before]
  simp [Sink.Event.ofLines]

theorem Stretch.ends_in_hlt {m₀ m : Machine} {out₀ out : σ} {tr : List Occurrence}
    (h : Stretch m₀ out₀ tr m out) (running : m₀.state = .running) (halted : m.state = .halted) :
    ∃ before e, tr = before ++ [e] ∧ e.instr = .hlt ∧ e.after = m := by
  cases h with
  | refl => cases running.symm.trans halted
  | @instr before m _ _ i _ state _ _ _ =>
    refine ⟨before, _, rfl, Decidable.not_not.1 fun other => ?_, rfl⟩
    cases state.symm.trans ((state_after other).symm.trans halted)

theorem proceed_of_ok {m m' : Machine} {out out' : σ} {s : State} {events : List Log.Event}
    (step : m.step filter out = ⟨.ok s, m', out', events⟩) (turns : Nat) (log : Array Log.Event) :
    proceed filter (turns + 1) m out log =
      if s = .halted then .ended (finish filter m' out' (log ++ events))
      else proceed filter turns m' out' (log ++ events) := by
  rw [proceed, step]
  cases s <;> rfl

/-- Turns that carry out a stretch come to where it ends, and one turn more finds out whether the
machine has halted there. -/
theorem proceed_of_stretch {m₀ m : Machine} {out₀ out : σ} {tr : List Occurrence}
    (h : Stretch m₀ out₀ tr m out) (turns : Nat) (log : Array Log.Event) :
    ∃ log', proceed filter (tr.length + (turns + 1)) m₀ out₀ log =
      proceed filter (turns + 1) m out log' := by
  induction h generalizing turns with
  | refl =>
    refine ⟨log, ?_⟩
    rw [List.length_nil, Nat.zero_add]
  | @instr tr m out out' i _ state reached next accepts ih =>
    obtain ⟨log', before⟩ := ih (turns + 1)
    refine ⟨log' ++ filter.emit (.fetching m.snapshot), ?_⟩
    rw [List.length_append, List.length_singleton, Nat.add_assoc, Nat.add_comm 1, before,
      proceed_of_ok (step_of_accepts filter state reached next accepts)]
    cases after : (m.after i).state with
    | running => exact if_neg nofun
    | halted =>
      rw [proceed_of_ok (step_of_halted after), if_pos rfl, if_pos rfl]
      simp

theorem run?_of_halted {m m' : Machine} {out out' : σ} {n : Nat}
    (turns : steps? filter n m out = some (m', out')) (halted : m'.state = .halted)
    (fits : m'.steps ≤ Text.wordMax) : ∃ o, m.run? filter out = some o ∧ o.machine = m' := by
  obtain ⟨tr, stretch⟩ := exists_stretch_of_steps? turns
  have count := stretch.steps
  -- The run has turns enough: each instruction counts, and the limit or the 64 bits bound the count.
  obtain ⟨k, enough⟩ : ∃ k, m.turnsNeeded = tr.length + (k + 1) := by
    have most : tr.length ≤ m.limit.getD (Text.wordMax + 1) - m.steps := by
      cases limit : m.limit with
      | none =>
        rw [Option.getD_none]
        omega
      | some L =>
        have within := steps_le_of_steps? limit turns
        rw [Option.getD_some]
        omega
    exact ⟨m.turnsNeeded - tr.length - 1, by unfold turnsNeeded; omega⟩
  obtain ⟨log, there⟩ := proceed_of_stretch stretch k (filter.emit (.running m.pc)).toArray
  rw [← enough, proceed_of_ok (step_of_halted halted), if_pos rfl] at there
  exact ⟨_, congrArg Progress.ended? there, (ending_finish halted).1⟩

theorem isFlush_of_mem_stepEvents {m : Machine} {out : σ} {e : Sink.Event}
    (h : e ∈ m.stepEvents filter out) : e.isFlush = false := by
  unfold stepEvents at h
  have ht := turn_step filter m ({ sink := out } : Recorder σ)
  generalize m.step filter ({ sink := out } : Recorder σ) = o at ht h
  cases ht with
  | halted | stopped | refused | silent => cases h
  | printed _ _ _ _ write | unprinted _ _ _ _ write =>
    rw [Recorder.events_of_write write] at h
    obtain rfl := List.mem_singleton.1 h
    rfl

/-- How a run ends that halts the machine: it prints, and then flushes once and answers with what
that comes to. The halting instruction is counted with the others. -/
structure EndsHalted (filter : Log.Filter) (m : Machine) (out : σ) (o : Outcome σ Nat) : Prop where
  flush : ∃ accepted,
    m.runEvents filter out =
      Sink.Event.ofLines (printedBytes (m.runTrace filter out)) ++ [.flush accepted] ∧
    o.result = if accepted then .ok o.machine.steps else .error .output
  count : o.machine.steps = m.steps + (m.runTrace filter out).length
  last : m.state = .running →
    ∃ before e, m.runTrace filter out = before ++ [e] ∧ e.instr = .hlt ∧ e.after = o.machine

theorem endsHalted {m : Machine} {out : σ} {o : Outcome σ Nat} (run : m.run? filter out = some o)
    (halted : o.machine.state = .halted) : EndsHalted filter m out o := by
  obtain ⟨r, r', stretch, ending, recorded⟩ := stretch_recorded run
  refine ⟨?_, stretch.steps, fun running => stretch.ends_in_hlt running halted⟩
  have events := stretch.events
  rw [List.nil_append] at events
  rw [recorded, ← events]
  generalize o.result = result at ending
  cases ending with
  | halted _ flush => exact ⟨true, Recorder.events_of_flush flush, rfl⟩
  | unflushed _ flush => exact ⟨false, Recorder.events_of_flush flush, rfl⟩
  | fault state => cases state.symm.trans halted

theorem endsRunning {m : Machine} {out : σ} {o : Outcome σ Nat} (run : m.run? filter out = some o)
    (running : o.machine.state = .running) :
    (∃ f, o.result = .error f) ∧ ∀ e ∈ m.runEvents filter out, e.isFlush = false := by
  obtain ⟨r, r', stretch, ending, recorded⟩ := stretch_recorded run
  have events := stretch.events
  rw [List.nil_append] at events
  rw [recorded]
  generalize o.result = result at ending
  cases ending with
  | halted state => cases state.symm.trans running
  | unflushed state => cases state.symm.trans running
  | @fault f _ step =>
    refine ⟨⟨f, rfl⟩, fun e he => ?_⟩
    obtain ⟨-, -, same | ⟨-, p, -, write⟩⟩ := step_error step
    · rw [same, events] at he
      exact Sink.Event.not_isFlush_of_mem_ofLines he
    · rw [Recorder.events_of_write write, events] at he
      obtain earlier | last := List.mem_append.1 he
      · exact Sink.Event.not_isFlush_of_mem_ofLines earlier
      · obtain rfl := List.mem_singleton.1 last
        rfl

/-- A halted machine under further calls: a turn finds it halted, and a run flushes the sink and
does nothing else. -/
structure StaysHalted (filter : Log.Filter) (m : Machine) (out : σ) : Prop where
  step : m.step filter out = ⟨.ok .halted, m, out, []⟩
  run : ∃ o, m.run? filter out = some o ∧ o.machine = m ∧ o.sink = (Sink.flush out).1 ∧
    o.result = if (Sink.flush out).2 then .ok m.steps else .error .output
  events : m.runEvents filter out = [.flush (Sink.flush out).2]

theorem finish_eq (m : Machine) (out : σ) (log : Array Log.Event) :
    (finish filter m out log).machine = m ∧
      (finish filter m out log).sink = (Sink.flush out).1 ∧
      (finish filter m out log).result =
        if (Sink.flush out).2 then .ok m.steps else .error .output := by
  unfold finish
  cases Sink.flush out with
  | mk out' accepted => cases accepted <;> exact ⟨rfl, rfl, rfl⟩

theorem run?_eq_finish (filter : Log.Filter) {m : Machine} (out : σ) (halted : m.state = .halted) :
    ∃ log, m.run? filter out = some (finish filter m out log) := by
  rw [run?, turnsNeeded, proceed_of_ok (step_of_halted halted), if_pos rfl]
  exact ⟨_, rfl⟩

theorem staysHalted (filter : Log.Filter) {m : Machine} (out : σ) (halted : m.state = .halted) :
    StaysHalted filter m out where
  step := step_of_halted halted
  run := by
    obtain ⟨log, run⟩ := run?_eq_finish filter out halted
    exact ⟨_, run, finish_eq m out log⟩
  events := by
    obtain ⟨log, run⟩ := run?_eq_finish filter ({ sink := out } : Recorder σ) halted
    rw [runEvents, run, Option.map_some, Option.getD_some, (finish_eq m _ log).2.1]
    rfl

/-- Halting is final and comes with just one flush, the last thing that a run asks of its sink; a
run that ends in a fault does not flush, nor does a turn. -/
theorem halting_is_final (filter : Log.Filter) (m : Machine) (out : σ) :
    (∀ n m' out', steps? filter n m out = some (m', out') → m'.state = .halted →
      m'.steps ≤ Text.wordMax → ∃ o, m.run? filter out = some o ∧ o.machine = m') ∧
    (∀ o, m.run? filter out = some o →
      (o.machine.state = .halted → EndsHalted filter m out o) ∧
      (o.machine.state = .running →
        (∃ f, o.result = .error f) ∧ ∀ e ∈ m.runEvents filter out, e.isFlush = false)) ∧
    (∀ e ∈ m.stepEvents filter out, e.isFlush = false) ∧
    (m.state = .halted → ∀ tr es m', Calls m tr es m' → m' = m.withLimit m'.limit ∧
      ∀ {τ : Type} [Sink τ] (filter : Log.Filter) (out : τ), StaysHalted filter m' out) := by
  refine ⟨fun n m' out' turns halted fits => run?_of_halted turns halted fits,
    fun o run => ⟨endsHalted run, endsRunning run⟩, fun e he => isFlush_of_mem_stepEvents he,
    fun halted tr es m' calls => ?_⟩
  have same := calls.eq_withLimit fun running => absurd (halted.symm.trans running) nofun
  refine ⟨same, fun filter out => staysHalted filter out ?_⟩
  rw [same]
  exact halted

def jammed : Buffer := { flushFails := true }

theorem twelve_halting_is_final :
    ∃ o, (loaded twelve).run? .silent jammed = some o ∧ o.machine.state = .halted ∧
      o.result = .error .output ∧ o.machine.steps = 3 ∧
      (loaded twelve).runEvents .silent jammed = [.write "12\n" true, .flush false] ∧
      ∃ o', (o.machine.withLimit (some 1)).run? .silent ({} : Buffer) = some o' ∧
        o'.machine = o.machine.withLimit (some 1) ∧ o'.result = .ok 3 := by
  have ends : ((loaded twelve).run? .silent jammed).map
      (fun o => (o.machine.state, Fault.of? o.result, o.machine.steps)) =
        some (.halted, some .output, 3) := by
    decide +kernel
  obtain ⟨o, run, shape⟩ := Option.map_eq_some_iff.1 ends
  simp only [Prod.mk.injEq, Fault.of?_eq_some_iff] at shape
  obtain ⟨halted, error, three⟩ := shape
  obtain ⟨-, ended, -, -⟩ := halting_is_final .silent (loaded twelve) jammed
  obtain ⟨accepted, events, result⟩ := ((ended o run).1 halted).flush
  have printed : printedBytes ((loaded twelve).runTrace .silent jammed) = [12] := by decide +kernel
  have refused : accepted = false := by
    cases accepted with
    | true => cases error.symm.trans result
    | false => rfl
  rw [printed, refused] at events
  have line : printedLine 12 = "12\n" := by decide
  obtain ⟨-, -, -, final⟩ := halting_is_final .silent o.machine ({} : Buffer)
  have again := ((final halted _ _ _ (.limit (some 1) .refl)).2 .silent ({} : Buffer)).run
  obtain ⟨o', rerun, same, -, answer⟩ := again
  refine ⟨o, run, halted, error, three, ?_, o', rerun, same, ?_⟩
  · rw [events, ← line]
    rfl
  · rw [answer, ← three]
    rfl

end Machine
end ByteCpu
