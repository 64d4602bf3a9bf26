import ByteCpu.Proofs.Machine.Runs

/-!
Calls on a machine, one after another, each with a sink of its own: the machine that they lead to,
the instructions that they carry out and what they ask of their sinks. What single instructions,
limits, refusals and flushes keep is kept by any sequence of calls, and each place in a trace is the
end of a shorter one.
-/

set_option autoImplicit false

namespace ByteCpu

def Progress.map {σ τ : Type} (f : σ → τ) : Progress σ → Progress τ
  | .ended o => .ended (o.map f)
  | .paused m out log => .paused m (f out) log

def Sink.Event.ofLines (vs : List UInt8) : List Sink.Event :=
  vs.map fun v => .write (printedLine v) true

theorem Recorder.events_of_accepts {σ : Type} [Sink σ] {r r' : Recorder σ}
    {printed : Option UInt8} (h : Sink.Accepts r printed r') :
    r'.events = r.events ++ Sink.Event.ofLines printed.toList := by
  cases printed with
  | none =>
    cases h
    exact (List.append_nil _).symm
  | some v => exact events_of_write h

namespace Machine

section
variable {σ τ : Type} [Sink σ] [Sink τ] {filter : Log.Filter}

theorem finish_map {f : σ → τ} (hf : Sink.Hom f) (filter : Log.Filter) (m : Machine) (out : σ)
    (log : Array Log.Event) : finish filter m (f out) log = (finish filter m out log).map f := by
  simp only [finish, hf.flush]
  cases Sink.flush out with
  | mk out' accepted => cases accepted <;> rfl

theorem proceed_map {f : σ → τ} (hf : Sink.Hom f) (filter : Log.Filter) (turns : Nat)
    (m : Machine) (out : σ) (log : Array Log.Event) :
    proceed filter turns m (f out) log = (proceed filter turns m out log).map f := by
  induction turns generalizing m out log with
  | zero => rfl
  | succ turns ih =>
    simp only [proceed, step_map hf]
    cases m.step filter out with
    | mk result m' out' events =>
      cases result with
      | error fault => rfl
      | ok s =>
        cases s with
        | halted => exact congrArg Progress.ended (finish_map hf filter m' out' _)
        | running => exact ih m' out' _

theorem run?_map {f : σ → τ} (hf : Sink.Hom f) (filter : Log.Filter) (m : Machine) (out : σ) :
    m.run? filter (f out) = (m.run? filter out).map (Outcome.map f) := by
  unfold run?
  rw [proceed_map hf]
  cases proceed filter m.turnsNeeded m out (filter.emit (.running m.pc)).toArray <;> rfl

theorem carriedOut_map {f : σ → τ} (hf : Sink.Hom f) (m : Machine) (out : σ) :
    m.carriedOut filter (f out) = m.carriedOut filter out := by
  unfold carriedOut
  rw [step_map hf]
  rfl

theorem executed_map {f : σ → τ} (hf : Sink.Hom f) (turns : Nat) (m : Machine) (out : σ) :
    executed filter turns m (f out) = executed filter turns m out := by
  induction turns generalizing m out with
  | zero => rfl
  | succ turns ih =>
    simp only [executed, carriedOut_map hf, step_map hf]
    cases m.step filter out with
    | mk result m' out' events =>
      cases result with
      | error f => rfl
      | ok s =>
        cases s with
        | halted => rfl
        | running => exact congrArg (_ ++ ·) (ih m' out')

def stepEvents (filter : Log.Filter) (m : Machine) (out : σ) : List Sink.Event :=
  (m.step filter ({ sink := out } : Recorder σ)).sink.events

def runEvents (filter : Log.Filter) (m : Machine) (out : σ) : List Sink.Event :=
  ((m.run? filter ({ sink := out } : Recorder σ)).map fun o => o.sink.events).getD []

theorem stretch_recorded {m : Machine} {out : σ} {o : Outcome σ Nat}
    (run : m.run? filter out = some o) :
    ∃ r r' : Recorder σ, Stretch m { sink := out } (m.runTrace filter out) o.machine r ∧
      Ending filter o.machine r o.result r' ∧ m.runEvents filter out = r'.events := by
  have same := run?_map Recorder.hom_sink filter m ({ sink := out } : Recorder σ)
  rw [run] at same
  obtain ⟨o', recorded, rfl⟩ := Option.map_eq_some_iff.1 same.symm
  obtain ⟨r, stretch, ending⟩ := stretch_run recorded
  have trace : m.runTrace filter ({ sink := out } : Recorder σ) = m.runTrace filter out :=
    (executed_map Recorder.hom_sink m.turnsNeeded m { sink := out }).symm
  rw [trace] at stretch
  refine ⟨r, o'.sink, stretch, ending, ?_⟩
  rw [runEvents, recorded]
  rfl

end

/-- The machine that a sequence of calls leads to, with what the calls have carried out and what
they have asked of their sinks. A call may fail; it must return. -/
inductive Calls (m₀ : Machine) : List Occurrence → List Sink.Event → Machine → Prop
  | refl : Calls m₀ [] [] m₀
  | step {tr : List Occurrence} {es : List Sink.Event} {m : Machine} {σ : Type} [Sink σ]
      (filter : Log.Filter) (out : σ) (before : Calls m₀ tr es m) :
      Calls m₀ (tr ++ m.carriedOut filter out) (es ++ m.stepEvents filter out)
        (m.step filter out).machine
  | run {tr : List Occurrence} {es : List Sink.Event} {m : Machine} {σ : Type} [Sink σ]
      (filter : Log.Filter) (out : σ) (before : Calls m₀ tr es m) {o : Outcome σ Nat}
      (returns : m.run? filter out = some o) :
      Calls m₀ (tr ++ m.runTrace filter out) (es ++ m.runEvents filter out) o.machine
  | limit {tr : List Occurrence} {es : List Sink.Event} {m : Machine} (limit : Option Nat)
      (before : Calls m₀ tr es m) : Calls m₀ tr es (m.withLimit limit)

/-- Calls with the trace lead to where the instruction is carried out. -/
def Occurs (m₀ : Machine) (tr : List Occurrence) (e : Occurrence) : Prop :=
  ∃ es, Calls m₀ tr es e.before ∧ e.before.state = .running ∧ e.before.next = .ok e.instr ∧
    e.after = e.before.after e.instr

def Fresh (m : Machine) : Prop := m = {} ∨ ∃ program, withProgram program = .ok m

def Reachable (m : Machine) : Prop := ∃ m₀ tr es, Fresh m₀ ∧ Calls m₀ tr es m

theorem Fresh.exists_memory {m : Machine} (h : Fresh m) : ∃ memory, m = { memory := memory } := by
  obtain rfl | ⟨program, load⟩ := h
  · exact ⟨_, rfl⟩
  · exact ⟨_, (withProgram_eq_ok_iff.1 load).2.symm⟩

/-- A property of a machine, of the trace that led there and of what the sinks have been asked,
which limits, instructions, refused lines and flushes keep. -/
structure Kept (P : List Occurrence → List Sink.Event → Machine → Prop) : Prop where
  limit {tr : List Occurrence} {es : List Sink.Event} {m : Machine} (limit : Option Nat) :
    P tr es m → P tr es (m.withLimit limit)
  instr {tr : List Occurrence} {es : List Sink.Event} {m : Machine} {i : Instr} :
    m.state = .running → m.limitReached = none → m.next = .ok i → P tr es m →
      P (tr ++ [⟨m, i, m.after i⟩]) (es ++ Sink.Event.ofLines (m.printed? i).toList) (m.after i)
  refused {tr : List Occurrence} {es : List Sink.Event} {m : Machine} (line : String) :
    P tr es m → P tr (es ++ [.write line false]) m
  flushed {tr : List Occurrence} {es : List Sink.Event} {m : Machine} (accepted : Bool) :
    P tr es m → P tr (es ++ [.flush accepted]) m

namespace Kept

variable {P : List Occurrence → List Sink.Event → Machine → Prop} {σ : Type} [Sink σ]
  {filter : Log.Filter} {m : Machine} {tr : List Occurrence} {es : List Sink.Event}
  {r r' : Recorder σ}

theorem step (k : Kept P) (filter : Log.Filter) (h : P tr (es ++ r.events) m) :
    P (tr ++ m.carriedOut filter r) (es ++ (m.step filter r).sink.events)
      (m.step filter r).machine := by
  cases state : m.state with
  | halted =>
    rw [carriedOut_of_halted state, step_of_halted state, List.append_nil]
    exact h
  | running =>
    cases result : (m.step filter r).result with
    | error f =>
      obtain ⟨-, same, kept | ⟨-, p, -, write⟩⟩ := step_error result
      · rwa [carriedOut_of_error result, List.append_nil, same, kept]
      · rw [carriedOut_of_error result, List.append_nil, same, Recorder.events_of_write write,
          ← List.append_assoc]
        exact k.refused _ h
    | ok s =>
      obtain ⟨i, reached, next, machine, -, accepts⟩ := step_ok state result
      rw [carriedOut_of_ok state next result, machine, Recorder.events_of_accepts accepts,
        ← List.append_assoc]
      exact k.instr state reached next h

theorem stretch (k : Kept P) {m₀ : Machine} {r₀ : Recorder σ} {tr' : List Occurrence}
    (stretch : Stretch m₀ r₀ tr' m r) (h : P tr (es ++ r₀.events) m₀) :
    P (tr ++ tr') (es ++ r.events) m := by
  induction stretch with
  | refl => rwa [List.append_nil]
  | instr _ state reached next accepts ih =>
    rw [← List.append_assoc, Recorder.events_of_accepts accepts, ← List.append_assoc]
    exact k.instr state reached next ih

theorem ending (k : Kept P) {result : Except Fault Nat} (ending : Ending filter m r result r')
    (h : P tr (es ++ r.events) m) : P tr (es ++ r'.events) m := by
  cases ending with
  | halted _ flush =>
    rw [Recorder.events_of_flush flush, ← List.append_assoc]
    exact k.flushed true h
  | unflushed _ flush =>
    rw [Recorder.events_of_flush flush, ← List.append_assoc]
    exact k.flushed false h
  | fault _ error =>
    have kept := k.step filter h
    rwa [carriedOut_of_error error, List.append_nil, (step_error error).2.1] at kept

theorem calls (k : Kept P) {m₀ : Machine} (calls : Calls m₀ tr es m) (start : P [] [] m₀) :
    P tr es m := by
  induction calls with
  | refl => exact start
  | @step tr es m σ _ filter out _ ih =>
    have kept := k.step (r := { sink := out }) filter (by rwa [List.append_nil])
    have trace : m.carriedOut filter out = _ := carriedOut_map Recorder.hom_sink m { sink := out }
    have machine := congrArg Outcome.machine (step_map Recorder.hom_sink filter m { sink := out })
    rw [trace, machine]
    exact kept
  | run filter out _ returns ih =>
    obtain ⟨r, r', stretch, ending, recorded⟩ := stretch_recorded returns
    rw [recorded]
    exact k.ending ending (k.stretch stretch (by rwa [List.append_nil]))
  | limit limit _ ih => exact k.limit limit ih

end Kept

namespace Calls

variable {m₀ m : Machine} {tr : List Occurrence} {es : List Sink.Event}

theorem keeps {P : List Occurrence → Machine → Prop} (calls : Calls m₀ tr es m) (start : P [] m₀)
    (limit : ∀ tr m l, P tr m → P tr (m.withLimit l))
    (instr : ∀ tr m i, m.state = .running → m.limitReached = none → m.next = .ok i → P tr m →
      P (tr ++ [⟨m, i, m.after i⟩]) (m.after i)) : P tr m :=
  Kept.calls (P := fun tr _ m => P tr m)
    { limit := limit _ _
      instr := instr _ _ _
      refused := fun _ h => h
      flushed := fun _ h => h } calls start

theorem instr {i : Instr} (calls : Calls m₀ tr es m) (state : m.state = .running)
    (reached : m.limitReached = none) (next : m.next = .ok i) :
    ∃ es', Calls m₀ (tr ++ [⟨m, i, m.after i⟩]) es' (m.after i) := by
  obtain ⟨out, accepts⟩ : ∃ out : Buffer, Sink.Accepts {} (m.printed? i) out := by
    cases m.printed? i with
    | none => exact ⟨_, rfl⟩
    | some v => exact ⟨_, Buffer.write_of_room rfl _⟩
  have step := step_of_accepts .silent state reached next accepts
  have longer := calls.step .silent ({} : Buffer)
  rw [carriedOut_of_ok state next (congrArg Outcome.result step), step] at longer
  exact ⟨_, longer⟩

/-- A trace up to one of its instructions is a trace, and the instruction is carried out there. -/
theorem upTo {p q : List Occurrence} {e : Occurrence} (calls : Calls m₀ (p ++ e :: q) es m) :
    Occurs m₀ p e := by
  refine (calls.keeps (P := fun tr m => (∃ es', Calls m₀ tr es' m) ∧
    ∀ p e, p ++ [e] <+: tr → Occurs m₀ p e) ⟨⟨_, .refl⟩, fun p e front => ?_⟩ ?_ ?_).2
      p e ⟨q, by simp⟩
  · simp at front
  · rintro tr m l ⟨⟨es, sofar⟩, places⟩
    exact ⟨⟨es, sofar.limit l⟩, places⟩
  · rintro tr m i state reached next ⟨⟨es, sofar⟩, places⟩
    refine ⟨sofar.instr state reached next, fun p e front => ?_⟩
    obtain whole | earlier := List.prefix_concat_iff.1 front
    · obtain ⟨rfl, same⟩ := List.append_inj' whole rfl
      cases same
      exact ⟨es, sofar, state, next, rfl⟩
    · exact places p e earlier

/-- A component that an instruction either sets or leaves is as the latest one set it. -/
theorem eq_latest {β : Type} {f : Occurrence → Option β} (calls : Calls m₀ tr es m)
    (view : Machine → Option β) (limit : ∀ m l, view (m.withLimit l) = view m)
    (instr : ∀ m i, view (m.after i) = (f ⟨m, i, m.after i⟩).or (view m)) :
    view m = (latest? f tr).or (view m₀) := by
  refine calls.keeps (P := fun tr m => view m = (latest? f tr).or (view m₀)) rfl ?_ ?_
  · intro tr m l same
    rw [limit, same]
  · intro tr m i _ _ _ same
    rw [instr, same, latest?_concat, Option.or_assoc]

end Calls

theorem Stretch.calls {σ : Type} [Sink σ] {m₀ m : Machine} {out₀ out : σ} {tr : List Occurrence}
    (h : Stretch m₀ out₀ tr m out) : ∃ es, Calls m₀ tr es m := by
  induction h with
  | refl => exact ⟨_, .refl⟩
  | instr _ state reached next _ ih =>
    obtain ⟨es, before⟩ := ih
    exact before.instr state reached next

theorem calls_turns (n : Nat) (m : Machine) : ∃ es, Calls m (turns n m).1 es (turns n m).2 := by
  induction n with
  | zero => exact ⟨_, .refl⟩
  | succ n ih =>
    obtain ⟨es, before⟩ := ih
    exact ⟨_, before.step .silent ({} : Buffer)⟩

theorem Reachable.pc_le {m : Machine} (h : Reachable m) : m.pc ≤ 256 := by
  obtain ⟨m₀, tr, es, fresh, calls⟩ := h
  obtain ⟨memory, rfl⟩ := fresh.exists_memory
  exact calls.keeps (P := fun _ m => m.pc ≤ 256) (Nat.zero_le _) (fun _ _ _ h => h)
    fun _ _ _ _ _ next _ => (next_eq_ok_iff.1 next).1.pc_after_le

end Machine
end ByteCpu
