import ByteCpu.Proofs.Log.TraceLine
import ByteCpu.Proofs.Machine.Footprint
import ByteCpu.Proofs.Machine.Halting

/-!
What calls on the machine log. Under another filter a call differs in its log only, which holds
those of all its events that the filter shows. The main statement says what all of them are: the
beginning of a run, the machine at each instruction that is fetched, and the end if it halts.
-/

set_option autoImplicit false

namespace ByteCpu

namespace Log

def Event.isFetch : Event → Bool
  | fetching _ => true
  | loaded .. | limitMalformed | running _ | halted _ | flushFailed _ => false

theorem Filter.admits_trace (e : Event) : (upTo .trace).admits e = true := by
  rw [admits_upTo]
  cases e <;> rfl

theorem Filter.admits_debug (e : Event) : (upTo .debug).admits e = !e.isFetch := by
  rw [admits_upTo]
  cases e <;> rfl

theorem Filter.emit_trace (e : Event) : (upTo .trace).emit e = [e] := by
  rw [emit, admits_trace, if_pos rfl]

theorem Filter.filter_emit_trace (f : Filter) (e : Event) :
    ((upTo .trace).emit e).filter f.admits = f.emit e := by
  rw [emit_trace, emit_eq_filter]

end Log

def Machine.fetchEvent (m : Machine) : Log.Event := .fetching m.snapshot

def Fault.isLimit : Fault → Bool
  | stepLimitExceeded _ => true
  | memoryOutOfRange _ | registerOutOfRange _ | divisionByZero | unsupportedOperation _
  | unknownOpcode .. | flagsUninitialized | output => false

namespace Outcome

variable {σ α : Type}

def shown (filter : Log.Filter) (o : Outcome σ α) : Outcome σ α :=
  { o with log := o.log.filter filter.admits }

/-- The call has met a fault at an instruction that it had fetched. A limit stops it before it
fetches, and a flush may fail when the machine has halted. -/
def faulted (o : Outcome σ α) : Bool :=
  match o.result with
  | .ok _ => false
  | .error f => !f.isLimit && o.machine.state = .running

def failedFetch (o : Outcome σ α) : List Machine := if o.faulted then [o.machine] else []

section
variable (m : Machine) (out : σ) (log : List Log.Event)

@[simp] theorem failedFetch_ok (a : α) :
    (⟨.ok a, m, out, log⟩ : Outcome σ α).failedFetch = [] := rfl

@[simp] theorem failedFetch_error (f : Fault) :
    (⟨.error f, m, out, log⟩ : Outcome σ α).failedFetch =
      if f.isLimit = false ∧ m.state = .running then [m] else [] := by
  simp [failedFetch, faulted]

end

end Outcome

namespace Progress

variable {σ : Type}

def shown (filter : Log.Filter) : Progress σ → Progress σ
  | ended o => ended (o.shown filter)
  | paused m out log => paused m out (log.filter filter.admits)

end Progress

def Unlimited {α : Type} (x : Except Fault α) : Prop := ∀ f, x = .error f → f.isLimit = false

namespace Unlimited

variable {α β : Type}

theorem ok (a : α) : Unlimited (.ok a) := nofun

theorem error {f : Fault} (other : f.isLimit = false) : Unlimited (.error f : Except Fault α) := by
  rintro _ ⟨⟩
  exact other

theorem bind {x : Except Fault α} {g : α → Except Fault β} (first : Unlimited x)
    (second : ∀ a, Unlimited (g a)) : Unlimited (x >>= g) := by
  cases x with
  | error f => exact error (first f rfl)
  | ok a => exact second a

theorem map {x : Except Fault α} (g : α → β) (h : Unlimited x) : Unlimited (g <$> x) := by
  cases x with
  | error f => exact error (h f rfl)
  | ok a => exact ok (g a)

theorem read (m : Memory) (a : Nat) : Unlimited (m.read a) := by
  unfold Memory.read
  split
  · exact ok _
  · exact error rfl

theorem registerAt (m : Memory) (a k : Nat) :
    Unlimited (Instr.registerAt (fun k => m.read (a + k)) k) := by
  refine bind (read m (a + k)) fun b => ?_
  unfold Reg.ofByte
  split
  · exact ok _
  · exact error rfl

theorem decode (m : Memory) (a : Nat) (op : Opcode) :
    Unlimited (Instr.decode (fun k => m.read (a + k)) op) := by
  have register := registerAt m a
  cases op with
  | hlt | ret => exact ok _
  | push | pop | prn | call | jmp | jeq | jne => exact map _ (register 1)
  | ldi => exact bind (register 1) fun r => bind (read m (a + 2)) fun v => ok _
  | alu op => exact bind (register 1) fun r => bind (register 2) fun q => ok _

theorem next (m : Machine) : Unlimited m.next := by
  refine bind (bind (read m.memory m.pc) fun byte => ?_) fun i => ?_
  · cases Opcode.decode byte with
    | none => exact error rfl
    | some op => exact decode m.memory m.pc op
  · cases refused : m.refusal? i with
    | none => exact ok i
    | some f =>
      refine error ?_
      cases i with
      | alu op => grind [Machine.refusal?_alu, Fault.isLimit]
      | _ => grind [Machine.refusal?, Fault.isLimit]

end Unlimited

namespace Machine

variable {σ : Type} [Sink σ]

theorem step_shown (filter : Log.Filter) (m : Machine) (out : σ) :
    m.step filter out = (m.step (.upTo .trace) out).shown filter := by
  rw [step_eq_iff]
  have ht := turn_step (.upTo .trace) m out
  generalize m.step (.upTo .trace) out = o at ht
  cases ht with
  | halted state => exact .halted state
  | stopped state reached => exact .stopped state reached
  | refused state reached next =>
    rw [Outcome.shown, Log.Filter.filter_emit_trace]
    exact .refused state reached next
  | silent state reached next printed =>
    rw [Outcome.shown, Log.Filter.filter_emit_trace]
    exact .silent state reached next printed
  | printed state reached next printed write =>
    rw [Outcome.shown, Log.Filter.filter_emit_trace]
    exact .printed state reached next printed write
  | unprinted state reached next printed write =>
    rw [Outcome.shown, Log.Filter.filter_emit_trace]
    exact .unprinted state reached next printed write

theorem finish_shown {filter : Log.Filter} {m : Machine} {out : σ} {log log' : Array Log.Event}
    (same : log.toList = log'.toList.filter filter.admits) :
    finish filter m out log = (finish (.upTo .trace) m out log').shown filter := by
  unfold finish
  cases Sink.flush out with
  | mk out' accepted =>
    cases accepted with
    | true => simp [Outcome.shown, same, Log.Filter.filter_emit_trace]
    | false => simp [Outcome.shown, same]

theorem proceed_shown {filter : Log.Filter} {turns : Nat} {m : Machine} {out : σ}
    {log log' : Array Log.Event} (same : log.toList = log'.toList.filter filter.admits) :
    proceed filter turns m out log = (proceed (.upTo .trace) turns m out log').shown filter := by
  induction turns generalizing m out log log' with
  | zero => exact congrArg (Progress.paused m out) same
  | succ turns ih =>
    unfold proceed
    rw [step_shown]
    cases m.step (.upTo .trace) out with
    | mk result m' out' events =>
      have more : (log ++ events.filter filter.admits).toList =
          (log' ++ events).toList.filter filter.admits := by
        simp [same]
      cases result with
      | error f => exact congrArg (fun log => Progress.ended ⟨.error f, m', out', log⟩) more
      | ok s =>
        cases s with
        | halted => exact congrArg Progress.ended (finish_shown more)
        | running => exact ih more

theorem run?_shown (filter : Log.Filter) (m : Machine) (out : σ) :
    m.run? filter out = (m.run? (.upTo .trace) out).map (·.shown filter) := by
  have begins : (filter.emit (.running m.pc)).toArray.toList =
      ((Log.Filter.upTo .trace).emit (.running m.pc)).toArray.toList.filter filter.admits :=
    (filter.filter_emit_trace (.running m.pc)).symm
  unfold run?
  rw [proceed_shown begins]
  cases proceed (.upTo .trace) m.turnsNeeded m out _ <;> rfl

def fetches (m : Machine) : List Machine :=
  if m.state = .running ∧ m.limitReached = none then [m] else []

theorem log_step (m : Machine) (out : σ) :
    (m.step (.upTo .trace) out).log = m.fetches.map fetchEvent := by
  have ht := turn_step (.upTo .trace) m out
  generalize m.step (.upTo .trace) out = o at ht
  cases ht with
  | halted state => simp [fetches, state]
  | stopped state reached => simp [fetches, reached]
  | refused state reached | silent state reached | printed state reached
  | unprinted state reached => simp [fetches, state, reached, fetchEvent, Log.Filter.emit_trace]

theorem fetches_eq (filter : Log.Filter) (m : Machine) (out : σ) :
    m.fetches = (m.carriedOut filter out).map (·.before) ++ (m.step filter out).failedFetch := by
  have ht := turn_step filter m out
  generalize hs : m.step filter out = o at ht
  have result : (m.step filter out).result = o.result := by rw [hs]
  cases ht with
  | halted state =>
    rw [carriedOut_of_halted state]
    simp [fetches, state]
  | stopped _ reached =>
    rw [carriedOut_of_error result]
    simp [fetches, reached, Fault.isLimit]
  | @refused f state reached next =>
    rw [carriedOut_of_error result]
    simp [fetches, state, reached, Unlimited.next m f next]
  | silent state reached next =>
    rw [carriedOut_of_ok state next result]
    simp [fetches, state, reached]
  | printed state reached next =>
    rw [carriedOut_of_ok state next result]
    simp [fetches, state, reached]
  | unprinted state reached =>
    rw [carriedOut_of_error result]
    simp [fetches, state, reached, Fault.isLimit]

theorem state_of_step_ok {filter : Log.Filter} {m : Machine} {out : σ} {s : State}
    (ok : (m.step filter out).result = .ok s) : (m.step filter out).machine.state = s := by
  obtain ⟨halted, rfl, same, -⟩ | ⟨-, -, rfl, -⟩ := step_ok_cases ok
  · rw [same, halted]
  · rfl

/-- The machine at each instruction that up to so many turns fetch. -/
def fetched (filter : Log.Filter) : Nat → Machine → σ → List Machine
  | 0, _, _ => []
  | turns + 1, m, out =>
    m.fetches ++
      match m.step filter out with
      | ⟨.ok .running, m', out', _⟩ => fetched filter turns m' out'
      | _ => []

end Machine

def Progress.haltEvents {σ : Type} (p : Progress σ) : List Log.Event :=
  match p.outcome.result with
  | .ok (some steps) => [.halted steps]
  | .ok none | .error _ => []

theorem Progress.failedFetch_ended {σ : Type} (o : Outcome σ Nat) :
    (ended o).outcome.failedFetch = o.failedFetch := by
  obtain ⟨result, m, out, log⟩ := o
  cases result <;> rfl

namespace Machine

variable {σ : Type} [Sink σ]

theorem log_finish (m : Machine) (out : σ) (log : Array Log.Event) :
    let p := Progress.ended (finish (.upTo .trace) m out log)
    p.outcome.log = log.toList ++ p.haltEvents := by
  unfold finish
  cases Sink.flush out with
  | mk out' accepted =>
    cases accepted with
    | true => simp [Progress.outcome, Progress.haltEvents, Except.map, Log.Filter.emit_trace]
    | false => simp [Progress.outcome, Progress.haltEvents, Except.map]

theorem log_proceed (turns : Nat) (m : Machine) (out : σ) (log : Array Log.Event) :
    let p := proceed (.upTo .trace) turns m out log
    p.outcome.log =
      log.toList ++ ((fetched (.upTo .trace) turns m out).map fetchEvent ++ p.haltEvents) := by
  induction turns generalizing m out log with
  | zero => simp [proceed, fetched, Progress.outcome, Progress.haltEvents]
  | succ turns ih =>
    have here := log_step m out
    unfold proceed fetched
    cases hs : m.step (.upTo .trace) out with
    | mk result m' out' events =>
      rw [hs] at here
      dsimp only at here
      cases result with
      | error f => simp [Progress.outcome, Progress.haltEvents, Except.map, here]
      | ok s =>
        cases s with
        | halted => simpa [here] using log_finish m' out' (log ++ events)
        | running => simpa [here] using ih m' out' (log ++ events)

theorem failedFetch_finish {filter : Log.Filter} {m : Machine} {out : σ} {log : Array Log.Event}
    (halted : m.state = .halted) : (finish filter m out log).failedFetch = [] := by
  have machine : (finish filter m out log).machine = m := (finish_eq m out log).1
  generalize finish filter m out log = o at machine
  obtain ⟨result, m', out', log'⟩ := o
  obtain rfl : m' = m := machine
  cases result <;> simp [halted]

theorem fetched_eq (filter : Log.Filter) (turns : Nat) (m : Machine) (out : σ)
    (log : Array Log.Event) :
    fetched filter turns m out =
      (executed filter turns m out).map (·.before) ++
        (proceed filter turns m out log).outcome.failedFetch := by
  induction turns generalizing m out log with
  | zero => rfl
  | succ turns ih =>
    have here := fetches_eq filter m out
    unfold fetched executed proceed
    cases hs : m.step filter out with
    | mk result m' out' events =>
      rw [hs] at here
      cases result with
      | error f =>
        rw [List.append_nil, List.append_nil, here]
        rfl
      | ok s =>
        rw [Outcome.failedFetch_ok, List.append_nil] at here
        cases s with
        | halted =>
          have halted : m'.state = .halted := by
            have after := state_of_step_ok (congrArg Outcome.result hs)
            rwa [hs] at after
          rw [Progress.failedFetch_ended, failedFetch_finish halted, here, List.append_nil,
            List.append_nil, List.append_nil]
        | running =>
          rw [List.map_append, List.append_assoc, ← ih m' out' (log ++ events), here]

/-- After `k` turns that succeed the machine is `m'`, and a turn of it fetches an instruction. -/
def FetchesAt (filter : Log.Filter) (m : Machine) (out : σ) (k : Nat) (m' : Machine) : Prop :=
  (∃ out', steps? filter k m out = some (m', out')) ∧ m'.state = .running ∧ m'.limitReached = none

section
variable {filter : Log.Filter} {m m' : Machine} {out : σ} {k : Nat}

theorem fetchesAt_zero : FetchesAt filter m out 0 m' ↔ m.fetches = [m'] := by
  unfold FetchesAt fetches
  by_cases here : m.state = .running ∧ m.limitReached = none
  · rw [if_pos here]
    constructor
    · rintro ⟨⟨out', same⟩, -⟩
      cases same
      rfl
    · rintro ⟨⟩
      exact ⟨⟨out, rfl⟩, here⟩
  · rw [if_neg here]
    constructor
    · rintro ⟨⟨out', same⟩, fetches⟩
      cases same
      exact absurd fetches here
    · nofun

theorem fetchesAt_succ : FetchesAt filter m out (k + 1) m' ↔
    (∃ s, (m.step filter out).result = .ok s) ∧
      FetchesAt filter (m.step filter out).machine (m.step filter out).sink k m' := by
  unfold FetchesAt
  simp only [steps?_succ_iff]
  constructor
  · rintro ⟨⟨out', ok, rest⟩, fetches⟩
    exact ⟨ok, ⟨out', rest⟩, fetches⟩
  · rintro ⟨ok, ⟨out', rest⟩, fetches⟩
    exact ⟨⟨out', ok, rest⟩, fetches⟩

theorem not_fetchesAt_of_halted (halted : m.state = .halted) : ¬FetchesAt filter m out k m' := by
  rintro ⟨⟨out', steps⟩, running, -⟩
  have still : m'.state = .halted := steps?_induction (P := fun m _ => m.state = .halted)
    (fun m₁ out₁ _ _ halted => by rw [step_of_halted halted]; exact halted) steps halted
  cases running.symm.trans still

end

theorem fetched_succ (filter : Log.Filter) (turns : Nat) (m : Machine) (out : σ) :
    (m.step filter out).result = .ok .running ∧ m.fetches = [m] ∧
        fetched filter (turns + 1) m out =
          m :: fetched filter turns (m.step filter out).machine (m.step filter out).sink ∨
      (∀ k m', ¬FetchesAt filter m out (k + 1) m') ∧
        fetched filter (turns + 1) m out = m.fetches := by
  rw [fetched]
  cases hs : m.step filter out with
  | mk result m' out' events =>
    cases result with
    | error f =>
      refine .inr ⟨fun k m₁ later => ?_, List.append_nil _⟩
      obtain ⟨⟨s, ok⟩, -⟩ := fetchesAt_succ.1 later
      rw [hs] at ok
      cases ok
    | ok s =>
      have ok : (m.step filter out).result = .ok s := by rw [hs]
      have after := state_of_step_ok ok
      rw [hs] at after
      cases s with
      | halted =>
        refine .inr ⟨fun k m₁ later => ?_, List.append_nil _⟩
        obtain ⟨-, rest⟩ := fetchesAt_succ.1 later
        rw [hs] at rest
        exact not_fetchesAt_of_halted after rest
      | running =>
        obtain ⟨-, other, -⟩ | ⟨running, reached, -, -⟩ := step_ok_cases ok
        · cases other
        · have one : m.fetches = [m] := if_pos ⟨running, reached⟩
          exact .inl ⟨rfl, one, by rw [one, List.singleton_append]⟩

theorem getElem?_fetched {filter : Log.Filter} {turns k : Nat} {m m' : Machine} {out : σ} :
    (fetched filter turns m out)[k]? = some m' ↔ k < turns ∧ FetchesAt filter m out k m' := by
  induction turns generalizing m out k with
  | zero => simp [fetched]
  | succ turns ih =>
    obtain ⟨ok, one, more⟩ | ⟨last, only⟩ := fetched_succ filter turns m out
    · rw [more]
      cases k with
      | zero => simp [fetchesAt_zero, one]
      | succ k => simp [fetchesAt_succ, ih, ok]
    · rw [only]
      cases k with
      | zero =>
        rw [fetchesAt_zero]
        unfold fetches
        split <;> simp
      | succ k =>
        have short : m.fetches[k + 1]? = none := by
          unfold fetches
          split <;> simp
        simp [short, last k]

theorem fetched_of_le {filter : Log.Filter} {turns turns' : Nat} {m : Machine} {out : σ}
    {log : Array Log.Event} {o : Outcome σ Nat}
    (h : proceed filter turns m out log = .ended o) (le : turns ≤ turns') :
    fetched filter turns' m out = fetched filter turns m out := by
  induction turns generalizing turns' m out log with
  | zero => cases h
  | succ turns ih =>
    obtain ⟨turns', rfl⟩ : ∃ t, turns' = t + 1 := ⟨turns' - 1, by omega⟩
    unfold proceed at h
    rw [fetched, fetched]
    cases hs : m.step filter out with
    | mk result m' out' events =>
      rw [hs] at h
      cases result with
      | error f => rfl
      | ok s =>
        cases s with
        | halted => rfl
        | running => exact congrArg (_ ++ ·) (ih h (by omega))

/-- What a run logs in full, where `ms` are the machines at the instructions that it fetches. -/
structure LogsInFull (m : Machine) (out : σ) (o : Outcome σ Nat) (ms : List Machine) : Prop where
  log : o.log = .running m.pc :: (ms.map fetchEvent ++
    match o.result with
    | .ok steps => [.halted steps]
    | .error _ => [])
  fetched (k : Nat) (m' : Machine) : ms[k]? = some m' ↔ FetchesAt (.upTo .trace) m out k m'
  count : m.steps + ms.length = o.machine.steps + o.faulted.toNat

theorem logsInFull {m : Machine} {out : σ} {o : Outcome σ Nat}
    (run : m.run? (.upTo .trace) out = some o) :
    LogsInFull m out o (fetched (.upTo .trace) m.turnsNeeded m out) := by
  obtain ⟨out', stretch, -⟩ := stretch_run run
  have steps := stretch.steps
  unfold run? at run
  generalize hp : proceed (.upTo .trace) m.turnsNeeded m out _ = p at run
  cases p with
  | paused => cases run
  | ended o' =>
    cases run
    refine ⟨?_, fun k m' => ?_, ?_⟩
    · have log := log_proceed m.turnsNeeded m out
        ((Log.Filter.upTo .trace).emit (.running m.pc)).toArray
      rw [hp, Log.Filter.emit_trace] at log
      obtain ⟨result, m', out', log'⟩ := o
      cases result <;> exact log
    · rw [getElem?_fetched]
      refine ⟨And.right, fun fetches => ⟨?_, fetches⟩⟩
      rw [← Nat.not_le]
      intro late
      have there : (fetched (.upTo .trace) (k + 1) m out)[k]? = some m' :=
        getElem?_fetched.2 ⟨Nat.lt_succ_self k, fetches⟩
      rw [fetched_of_le hp (Nat.le_succ_of_le late), getElem?_fetched] at there
      omega
    · rw [fetched_eq, hp, Progress.failedFetch_ended, List.length_append, List.length_map, steps]
      unfold runTrace Outcome.failedFetch
      cases o.faulted <;> simp [Nat.add_assoc]

/-- Logging changes the log alone, and of the full log a filter shows what it admits. In full, a
turn logs the machine if it fetches an instruction. A run logs its beginning, the machine at each
instruction that it fetches, that of a fault included, and last its end if it halts; without the
second it is the log of the level below. A trace line tells what it shows of the machine. -/
theorem log_follows_the_run (m : Machine) (out : σ) :
    (∀ filter : Log.Filter,
      m.step filter out = (m.step (.upTo .trace) out).shown filter ∧
      m.run? filter out = (m.run? (.upTo .trace) out).map (·.shown filter) ∧
      (∀ turns, proceed filter turns m out (filter.emit (.running m.pc)).toArray =
        (proceed (.upTo .trace) turns m out #[.running m.pc]).shown filter) ∧
      m.stepEvents filter out = m.stepEvents (.upTo .trace) out ∧
      m.runEvents filter out = m.runEvents (.upTo .trace) out) ∧
    ((m.step (.upTo .trace) out).log =
      if m.state = .running ∧ m.limitReached = none then [m.fetchEvent] else []) ∧
    (∀ o, m.run? (.upTo .trace) out = some o →
      (∃ ms, LogsInFull m out o ms) ∧
      m.run? (.upTo .debug) out = some { o with log := o.log.filter fun e => !e.isFetch }) ∧
    (∀ turns m' out' log,
      proceed (.upTo .trace) turns m out #[.running m.pc] = .paused m' out' log →
        ∃ ms : List Machine, log = .running m.pc :: ms.map fetchEvent ∧
          ∀ k m'', ms[k]? = some m'' ↔ k < turns ∧ FetchesAt (.upTo .trace) m out k m'') ∧
    Snapshot.ofLine? m.fetchEvent.text = some m.snapshot ∧
    ∀ m' : Machine, m.fetchEvent.text = m'.fetchEvent.text →
      m.pc = m'.pc ∧
        (∀ k < 3, (m.memory.read (m.pc + k)).toOption = (m'.memory.read (m'.pc + k)).toOption) ∧
        m.registers = m'.registers := by
  refine ⟨fun filter => ⟨step_shown filter m out, run?_shown filter m out, fun turns => ?_, ?_, ?_⟩,
    ?_, fun o run => ⟨⟨_, logsInFull run⟩, ?_⟩, fun turns m' out' log paused => ?_,
    ofLine?_snapshot m, fun m' same => ?_⟩
  · exact proceed_shown (by rw [Log.Filter.emit_eq_filter])
  · rw [stepEvents, step_shown]
    rfl
  · rw [runEvents, run?_shown, Option.map_map]
    rfl
  · rw [log_step, fetches]
    split <;> rfl
  · rw [run?_shown, run, Option.map_some]
    have debug : (Log.Filter.upTo .debug).admits = fun e => !e.isFetch :=
      funext Log.Filter.admits_debug
    rw [Outcome.shown, debug]
  · have full := log_proceed turns m out #[.running m.pc]
    rw [paused] at full
    refine ⟨_, ?_, fun k m'' => getElem?_fetched⟩
    simpa [Progress.outcome, Progress.haltEvents] using full
  · have read := ofLine?_snapshot m'
    refine snapshot_determines (Option.some.inj ?_)
    rw [← ofLine?_snapshot m, ← read]
    exact congrArg Snapshot.ofLine? same

theorem twelve_log_follows_the_run :
    ∃ o, (loaded twelve).run? (.upTo .trace) narrow = some o ∧ o.result = .error .output ∧
      o.machine.steps = 1 ∧
      o.log.map (·.text) = ["running pc=0",
        "TRACE: 00 | 82 00 0C | 00 00 00 00 00 00 00 F4",
        "TRACE: 03 | 47 00 01 | 0C 00 00 00 00 00 00 F4"] ∧
      ∃ ms, LogsInFull (loaded twelve) narrow o ms ∧ ms.length = 2 := by
  have fails : ((loaded twelve).run? (.upTo .trace) narrow).map
      (fun o => (Fault.of? o.result, o.machine.steps, o.faulted, o.log.map (·.text))) =
        some (some .output, 1, true, ["running pc=0",
          "TRACE: 00 | 82 00 0C | 00 00 00 00 00 00 00 F4",
          "TRACE: 03 | 47 00 01 | 0C 00 00 00 00 00 00 F4"]) := by
    decide +kernel
  obtain ⟨o, run, ends⟩ := Option.map_eq_some_iff.1 fails
  simp only [Prod.mk.injEq, Fault.of?_eq_some_iff] at ends
  obtain ⟨error, one, faulted, text⟩ := ends
  obtain ⟨-, -, full, -⟩ := log_follows_the_run (loaded twelve) narrow
  obtain ⟨⟨ms, logs⟩, -⟩ := full o run
  have count := logs.count
  rw [one, faulted] at count
  exact ⟨o, run, error, one, text, ms, logs, (Nat.zero_add _).symm.trans count⟩

end Machine
end ByteCpu
