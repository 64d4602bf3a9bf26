import ByteCpu.Proofs.Machine.Calls

/-!
Runs under a limit, seen from the same machine without one. The main statement is that such a run
returns, with the outcome of the unlimited run if that ends within the limit, and otherwise with the
machine as it is when the limit is used up.
-/

set_option autoImplicit false

namespace ByteCpu

/-- A sink that agrees to every line and to every flush, now and later. -/
def Sink.NeverFails {σ : Type} [Sink σ] (s : σ) : Prop :=
  ∃ good : σ → Prop, good s ∧ ∀ s, good s →
    (∀ line, good (Sink.write s line).1 ∧ (Sink.write s line).2 = true) ∧
      good (Sink.flush s).1 ∧ (Sink.flush s).2 = true

theorem Buffer.neverFails {b : Buffer} (room : b.room = none) (flushes : b.flushFails = false) :
    Sink.NeverFails b := by
  refine ⟨fun b => b.room = none ∧ b.flushFails = false, ⟨room, flushes⟩, ?_⟩
  rintro b ⟨hr, hf⟩
  have flush : Sink.flush b = ({ b with flushes := b.flushes + 1 }, true) := by
    change b.flush = _
    simp [Buffer.flush, hf]
  refine ⟨fun line => ?_, ?_⟩
  · rw [Buffer.write_of_room hr]
    exact ⟨⟨hr, hf⟩, rfl⟩
  · rw [flush]
    exact ⟨⟨hr, hf⟩, rfl⟩

def Outcome.withLimit {σ α : Type} (o : Outcome σ α) (limit : Option Nat) : Outcome σ α :=
  { o with machine := o.machine.withLimit limit }

namespace Machine

variable {σ : Type} [Sink σ] {filter : Log.Filter}

def AsLoose (l l' : Option Nat) : Prop := ∀ n, l.filter (· ≤ n) = none → l'.filter (· ≤ n) = none

theorem asLoose_none (l : Option Nat) : AsLoose l none := fun _ _ => rfl

theorem asLoose_some {a b : Nat} (h : a ≤ b) : AsLoose (some a) (some b) := by
  intro n hn
  simp only [Option.filter_eq_none_iff, Option.some.injEq, forall_eq', decide_eq_true_eq] at hn ⊢
  omega

theorem step_withLimit {m : Machine} {out : σ} {l : Option Nat}
    (h : m.state = .running → m.limitReached = none ∧ (m.withLimit l).limitReached = none) :
    (m.withLimit l).step filter out = (m.step filter out).withLimit l := by
  rw [step_eq_iff]
  have ht := turn_step filter m out
  generalize m.step filter out = o at ht
  cases ht with
  | halted state => exact .halted state
  | stopped state reached =>
    rw [(h state).1] at reached
    cases reached
  | refused state _ next => exact .refused state (h state).2 next
  | silent state _ next printed =>
    have ht : Turn filter (m.withLimit l) out _ := .silent state (h state).2 next printed
    rwa [after_withLimit] at ht
  | printed state _ next printed write =>
    have ht : Turn filter (m.withLimit l) out _ := .printed state (h state).2 next printed write
    rwa [after_withLimit] at ht
  | unprinted state _ next printed write =>
    exact .unprinted state (h state).2 next printed write

theorem limit_of_steps? {n : Nat} {m m' : Machine} {out out' : σ}
    (h : steps? filter n m out = some (m', out')) : m'.limit = m.limit :=
  steps?_induction (P := fun m₁ _ => m₁.limit = m.limit)
    (fun m₁ out₁ _ _ hm => (limit_step filter m₁ out₁).trans hm) h rfl

theorem steps_le_of_steps? {n L : Nat} {m m' : Machine} {out out' : σ} (limit : m.limit = some L)
    (h : steps? filter n m out = some (m', out')) : m'.steps ≤ max m.steps L := by
  refine (steps?_induction (P := fun m₁ _ => m₁.limit = some L ∧ m₁.steps ≤ max m.steps L)
    ?_ h ⟨limit, Nat.le_max_left _ _⟩).2
  rintro m₁ out₁ s ok ⟨hl, hs⟩
  refine ⟨(limit_step filter m₁ out₁).trans hl, ?_⟩
  obtain ⟨-, -, hm, -⟩ | ⟨-, reached, -, count⟩ := step_ok_cases ok
  · rwa [hm]
  · have room := (limitReached_eq_none_iff hl).1 reached
    omega

theorem neverFails_of_steps? {n : Nat} {m m' : Machine} {out out' : σ}
    (accepts : Sink.NeverFails out) (h : steps? filter n m out = some (m', out')) :
    Sink.NeverFails out' := by
  obtain ⟨good, start, keeps⟩ := accepts
  refine ⟨good, ?_, keeps⟩
  refine steps?_induction (P := fun _ out₁ => good out₁) ?_ h start
  intro m₁ out₁ s ok hg
  have ht := turn_step filter m₁ out₁
  generalize m₁.step filter out₁ = o at ht ok
  cases ht with
  | halted | silent => exact hg
  | stopped | refused | unprinted => cases ok
  | @printed _ v _ _ _ _ _ write =>
    have hw := ((keeps out₁ hg).1 (printedLine v)).1
    rwa [write] at hw

theorem sink_of_error {m : Machine} {out : σ} {f : Fault} (accepts : Sink.NeverFails out)
    (error : (m.step filter out).result = .error f) : (m.step filter out).sink = out := by
  obtain ⟨-, -, same | ⟨-, r, -, write⟩⟩ := step_error error
  · exact same
  · obtain ⟨good, start, keeps⟩ := accepts
    have agreed := ((keeps out start).1 (printedLine (m.registers.get r))).2
    rw [write] at agreed
    cases agreed

theorem steps?_withLimit {n : Nat} {m m' : Machine} {out out' : σ} {l : Option Nat}
    (loose : AsLoose m.limit l) (h : steps? filter n m out = some (m', out')) :
    steps? filter n (m.withLimit l) out = some (m'.withLimit l, out') := by
  induction n generalizing m out with
  | zero =>
    cases h
    rfl
  | succ n ih =>
    obtain ⟨⟨s, ok⟩, rest⟩ := steps?_succ_iff.1 h
    have free : m.state = .running → m.limitReached = none ∧ (m.withLimit l).limitReached = none := by
      intro running
      obtain ⟨i, reached, -⟩ := step_ok running ok
      exact ⟨reached, loose m.steps reached⟩
    rw [steps?_succ_iff, step_withLimit free]
    refine ⟨⟨s, ok⟩, ih ?_ rest⟩
    rwa [limit_step]

theorem proceed_of_le {turns turns' : Nat} {m : Machine} {out : σ} {log : Array Log.Event}
    {o : Outcome σ Nat} (h : proceed filter turns m out log = .ended o) (le : turns ≤ turns') :
    proceed filter turns' m out log = .ended o := by
  induction turns generalizing turns' m out log with
  | zero => cases h
  | succ turns ih =>
    obtain ⟨turns', rfl⟩ : ∃ t, turns' = t + 1 := ⟨turns' - 1, by omega⟩
    unfold proceed at h ⊢
    cases hs : m.step filter out with
    | mk result m' out' events =>
      rw [hs] at h
      cases result with
      | error f => exact h
      | ok s =>
        cases s with
        | halted => exact h
        | running => exact ih h (by omega)

theorem proceed_withLimit {turns : Nat} {m : Machine} {out : σ} {log : Array Log.Event}
    {o : Outcome σ Nat} {l : Option Nat} (loose : AsLoose m.limit l)
    (h : proceed filter turns m out log = .ended o)
    (unstopped : ∀ L ∈ m.limit, o.result ≠ .error (.stepLimitExceeded L)) :
    proceed filter turns (m.withLimit l) out log = .ended (o.withLimit l) := by
  induction turns generalizing m out log with
  | zero => cases h
  | succ turns ih =>
    have free : m.state = .running → m.limitReached = none ∧ (m.withLimit l).limitReached = none := by
      intro running
      cases reached : m.limitReached with
      | none => exact ⟨rfl, loose m.steps reached⟩
      | some L =>
        rw [proceed, step_eq_iff.2 (.stopped running reached)] at h
        cases h
        exact absurd rfl (unstopped L (Option.mem_filter_iff.1 reached).1)
    have limit := limit_step filter m out
    unfold proceed at h ⊢
    rw [step_withLimit free]
    cases hs : m.step filter out with
    | mk result m' out' events =>
      rw [hs] at h limit
      cases result with
      | error f =>
        cases h
        rfl
      | ok s =>
        cases s with
        | halted =>
          cases h
          simp only [Outcome.withLimit, finish]
          cases Sink.flush out' with
          | mk out'' accepted => cases accepted <;> rfl
        | running => exact ih (by rwa [limit]) h (by rwa [limit])

theorem proceed_ends {turns L : Nat} {m : Machine} {out : σ} {log : Array Log.Event}
    (limit : m.limit = some L) (enough : L - m.steps < turns) :
    ∃ o, proceed filter turns m out log = .ended o := by
  induction turns generalizing m out log with
  | zero => omega
  | succ turns ih =>
    have kept := limit_step filter m out
    unfold proceed
    cases hs : m.step filter out with
    | mk result m' out' events =>
      cases result with
      | error f => exact ⟨_, rfl⟩
      | ok s =>
        cases s with
        | halted => exact ⟨_, rfl⟩
        | running =>
          have ok : (m.step filter out).result = .ok .running := by rw [hs]
          obtain ⟨-, hs', -⟩ | ⟨-, reached, -, count⟩ := step_ok_cases ok
          · cases hs'
          · rw [hs] at count kept
            dsimp only at count
            have room := (limitReached_eq_none_iff limit).1 reached
            exact ih (kept.trans limit) (by omega)

/-- Without a limit, `n` instructions are carried out and lead to `m'` and `out'`. -/
def Executes (filter : Log.Filter) (n : Nat) (m : Machine) (out : σ) (m' : Machine) (out' : σ) :
    Prop :=
  steps? filter n (m.withLimit none) out = some (m', out') ∧ m'.steps = m.steps + n

def Stopped (filter : Log.Filter) (m : Machine) (out : σ) : Prop :=
  m.state = .halted ∨ ∃ f, (m.step filter out).result = .error f

theorem Executes.le_of_stopped {n k : Nat} {m m₁ m₂ : Machine} {out out₁ out₂ : σ}
    (long : Executes filter n m out m₁ out₁) (short : Executes filter k m out m₂ out₂)
    (stopped : Stopped filter m₂ out₂) : n ≤ k := by
  refine Nat.le_of_not_lt fun longer => ?_
  obtain ⟨j, rfl⟩ : ∃ j, n = k + (j + 1) := ⟨n - k - 1, by omega⟩
  obtain ⟨steps, count⟩ := long
  rw [steps?_add, short.1, Option.bind_some] at steps
  obtain ⟨⟨s, ok⟩, rest⟩ := steps?_succ_iff.1 steps
  obtain state | ⟨f, error⟩ := stopped
  -- Turns beyond a halt succeed but do not count, and a turn that meets a fault does not succeed.
  · have still := steps?_induction
      (P := fun m₃ _ => m₃.state = .halted ∧ m₃.steps = m₂.steps) ?_ steps ⟨state, rfl⟩
    · have before := short.2
      omega
    · rintro m₃ out₃ s' ok' ⟨halted, same⟩
      rw [step_of_halted halted]
      exact ⟨halted, same⟩
  · rw [error] at ok
    cases ok

theorem Executes.functional {n : Nat} {m m₁ m₂ : Machine} {out out₁ out₂ : σ}
    (h₁ : Executes filter n m out m₁ out₁) (h₂ : Executes filter n m out m₂ out₂) :
    m₁ = m₂ ∧ out₁ = out₂ := by
  have same := h₁.1.symm.trans h₂.1
  simpa only [Option.some.injEq, Prod.mk.injEq] using same

theorem Executes.unique {n k : Nat} {m m₁ m₂ : Machine} {out out₁ out₂ : σ}
    (h₁ : Executes filter n m out m₁ out₁) (h₂ : Executes filter k m out m₂ out₂)
    (stopped₁ : Stopped filter m₁ out₁) (stopped₂ : Stopped filter m₂ out₂) :
    n = k ∧ m₁ = m₂ ∧ out₁ = out₂ := by
  obtain rfl := Nat.le_antisymm (h₁.le_of_stopped h₂ stopped₂) (h₂.le_of_stopped h₁ stopped₁)
  exact ⟨rfl, h₁.functional h₂⟩

/-- The unlimited machine halts after `n` instructions, the halting one included. -/
def HaltsAfter (filter : Log.Filter) (n : Nat) (m : Machine) (out : σ) (m' : Machine) (out' : σ) :
    Prop :=
  Executes filter n m out m' out' ∧ m'.state = .halted

def FaultsAfter (filter : Log.Filter) (n : Nat) (f : Fault) (m : Machine) (out : σ) (m' : Machine)
    (out' : σ) : Prop :=
  Executes filter n m out m' out' ∧ (m'.step filter out').result = .error f

/-- How a run ends under a limit: as the unlimited machine does, or with the limit used up. -/
inductive LimitedEnding (filter : Log.Filter) (L : Nat) (m : Machine) (out : σ) :
    Outcome σ Nat → Prop
  | halts {o : Outcome σ Nat} {n : Nat} {m' : Machine} {out' : σ}
      (execution : HaltsAfter filter n m out m' out') (within : m.steps + n ≤ L)
      (result : o.result = .ok (m.steps + n)) (machine : o.machine = m'.withLimit (some L))
      (sink : o.sink = (Sink.flush out').1) : LimitedEnding filter L m out o
  | faults {o : Outcome σ Nat} {n : Nat} {f : Fault} {m' : Machine} {out' : σ}
      (execution : FaultsAfter filter n f m out m' out') (within : m.steps + n < L)
      (result : o.result = .error f) (machine : o.machine = m'.withLimit (some L))
      (sink : o.sink = out') : LimitedEnding filter L m out o
  | stops {o : Outcome σ Nat} {m' : Machine}
      (execution : Executes filter (L - m.steps) m out m' o.sink) (state : m'.state = .running)
      (result : o.result = .error (.stepLimitExceeded L))
      (machine : o.machine = m'.withLimit (some L)) (count : o.machine.steps = max m.steps L) :
      LimitedEnding filter L m out o

theorem limitedEnding_run {L : Nat} {m : Machine} {out : σ} {o : Outcome σ Nat}
    (running : m.state = .running) (accepts : Sink.NeverFails out)
    (run : (m.withLimit (some L)).run? filter out = some o) : LimitedEnding filter L m out o := by
  obtain ⟨n, m₁, out₁, steps, count, machine, ending⟩ := ending_run run
  rw [steps_withLimit] at count
  have limit : m₁.limit = some L := limit_of_steps? steps
  have most : m₁.steps ≤ max m.steps L :=
    steps_le_of_steps? (m := m.withLimit (some L)) rfl steps
  have execution : Executes filter n m out (m₁.withLimit none) out₁ :=
    ⟨steps?_withLimit (m := m.withLimit (some L)) (asLoose_none _) steps, count⟩
  have same : o.machine = (m₁.withLimit none).withLimit (some L) := by
    rw [machine, ← limit]
    rfl
  generalize result : o.result = r at ending
  generalize sink : o.sink = s at ending
  cases ending with
  | halted state flush =>
    have moved : n ≠ 0 := by
      rintro rfl
      cases steps
      cases running.symm.trans state
    refine .halts ⟨execution, state⟩ (by omega) (by rw [result, count]) same ?_
    rw [sink, flush]
  | unflushed state flush =>
    obtain ⟨good, start, keeps⟩ := neverFails_of_steps? accepts steps
    have agreed := (keeps out₁ start).2.2
    rw [flush] at agreed
    cases agreed
  | @fault f state step =>
    cases reached : m₁.limitReached with
    | none =>
      have within := (limitReached_eq_none_iff limit).1 reached
      have free : (m₁.withLimit none).step filter out₁ = (m₁.step filter out₁).withLimit none :=
        step_withLimit fun _ => ⟨reached, rfl⟩
      have error : ((m₁.withLimit none).step filter out₁).result = .error f := by rwa [free]
      have untouched := sink_of_error (neverFails_of_steps? accepts steps) step
      exact .faults ⟨execution, error⟩ (by omega) result same (by rw [sink, untouched])
    | some L' =>
      obtain ⟨hL, used⟩ := Option.mem_filter_iff.1 reached
      obtain rfl : L = L' := Option.some.inj (limit.symm.trans hL)
      rw [step_eq_iff.2 (.stopped state reached)] at step sink
      cases step
      have used : L ≤ m₁.steps := of_decide_eq_true used
      have all : n = L - m.steps := by omega
      subst all sink
      refine .stops execution state result same ?_
      rw [machine]
      omega

/-- What becomes of the run of a machine when it is given a limit. `counts` is about every turn on
the way: one that counts finds the counter below the limit. -/
structure LimitedRun (filter : Log.Filter) (L : Nat) (m : Machine) (out : σ) (o : Outcome σ Nat) :
    Prop where
  halts {n : Nat} {m' : Machine} {out' : σ} :
    HaltsAfter filter n m out m' out' → m.steps + n ≤ L →
      o.result = .ok (m.steps + n) ∧ o.machine = m'.withLimit (some L) ∧
        o.sink = (Sink.flush out').1
  faults {n : Nat} {f : Fault} {m' : Machine} {out' : σ} :
    FaultsAfter filter n f m out m' out' → m.steps + n < L →
      o.result = .error f ∧ o.machine = m'.withLimit (some L) ∧ o.sink = out'
  stops :
    (∀ n m' out', HaltsAfter filter n m out m' out' → ¬m.steps + n ≤ L) →
    (∀ n f m' out', FaultsAfter filter n f m out m' out' → ¬m.steps + n < L) →
      o.result = .error (.stepLimitExceeded L) ∧ o.machine.steps = max m.steps L ∧
        ∃ m', Executes filter (L - m.steps) m out m' o.sink ∧ o.machine = m'.withLimit (some L)
  raised {L' : Nat} : L ≤ L' → o.result ≠ .error (.stepLimitExceeded L) →
    (m.withLimit (some L')).run? filter out = some (o.withLimit (some L'))
  lifted : L ≤ Text.wordMax → o.result ≠ .error (.stepLimitExceeded L) →
    (m.withLimit none).run? filter out = some (o.withLimit none)
  lowered : L ≤ m.steps →
    o = ⟨.error (.stepLimitExceeded L), m.withLimit (some L), out, filter.emit (.running m.pc)⟩
  counts {n : Nat} {m' : Machine} {out' : σ} {s : State} :
    steps? filter n (m.withLimit (some L)) out = some (m', out') → m'.state = .running →
      (m'.step filter out').result = .ok s →
        (m'.step filter out').machine.steps = m'.steps + 1 ∧ m'.steps < L

theorem run?_withLimit {L : Nat} {m : Machine} {out : σ} {o : Outcome σ Nat} {l : Option Nat}
    (run : (m.withLimit (some L)).run? filter out = some o)
    (unstopped : o.result ≠ .error (.stepLimitExceeded L)) (loose : AsLoose (some L) l)
    (more : L ≤ l.getD (Text.wordMax + 1)) :
    (m.withLimit l).run? filter out = some (o.withLimit l) := by
  unfold run? at run ⊢
  generalize hp : proceed filter _ (m.withLimit (some L)) out _ = p at run
  cases p with
  | paused => cases run
  | ended o' =>
    cases run
    have same := proceed_withLimit (m := m.withLimit (some L)) loose hp fun L' hL => by
      obtain rfl : L = L' := Option.some.inj hL
      exact unstopped
    have enough : (m.withLimit (some L)).turnsNeeded ≤ (m.withLimit l).turnsNeeded := by
      simp only [turnsNeeded, withLimit, Option.getD_some]
      omega
    have longer := proceed_of_le same enough
    exact congrArg Progress.ended? longer

theorem not_halted_of_error {m : Machine} {out : σ} {f : Fault}
    (error : (m.step filter out).result = .error f) : m.state ≠ .halted := by
  rw [(step_error error).1]
  nofun

theorem LimitedEnding.of_halts {L n : Nat} {m m' : Machine} {out out' : σ} {o : Outcome σ Nat}
    (ending : LimitedEnding filter L m out o) (h : HaltsAfter filter n m out m' out')
    (within : m.steps + n ≤ L) :
    o.result = .ok (m.steps + n) ∧ o.machine = m'.withLimit (some L) ∧
      o.sink = (Sink.flush out').1 := by
  cases ending with
  | halts execution _ result machine sink =>
    obtain ⟨rfl, rfl, rfl⟩ := execution.1.unique h.1 (.inl execution.2) (.inl h.2)
    exact ⟨result, machine, sink⟩
  | @faults _ f _ _ execution =>
    obtain ⟨rfl, rfl, rfl⟩ := execution.1.unique h.1 (.inr ⟨f, execution.2⟩) (.inl h.2)
    exact absurd h.2 (not_halted_of_error execution.2)
  | stops execution state =>
    have late := execution.le_of_stopped h.1 (.inl h.2)
    obtain rfl : n = L - m.steps := by omega
    obtain ⟨rfl, -⟩ := execution.functional h.1
    cases state.symm.trans h.2

theorem LimitedEnding.of_faults {L n : Nat} {f : Fault} {m m' : Machine} {out out' : σ}
    {o : Outcome σ Nat} (ending : LimitedEnding filter L m out o)
    (h : FaultsAfter filter n f m out m' out') (within : m.steps + n < L) :
    o.result = .error f ∧ o.machine = m'.withLimit (some L) ∧ o.sink = out' := by
  cases ending with
  | halts execution =>
    obtain ⟨rfl, rfl, rfl⟩ := execution.1.unique h.1 (.inl execution.2) (.inr ⟨f, h.2⟩)
    exact absurd execution.2 (not_halted_of_error h.2)
  | @faults _ f' _ _ execution _ result machine sink =>
    obtain ⟨rfl, rfl, rfl⟩ := execution.1.unique h.1 (.inr ⟨f', execution.2⟩) (.inr ⟨f, h.2⟩)
    obtain rfl : f' = f := Except.error.inj (execution.2.symm.trans h.2)
    exact ⟨result, machine, sink⟩
  | stops execution =>
    have late := execution.le_of_stopped h.1 (.inr ⟨f, h.2⟩)
    omega

theorem run?_of_le {L : Nat} {m : Machine} {out : σ} (running : m.state = .running)
    (used : L ≤ m.steps) :
    (m.withLimit (some L)).run? filter out =
      some ⟨.error (.stepLimitExceeded L), m.withLimit (some L), out,
        filter.emit (.running m.pc)⟩ := by
  have reached : (m.withLimit (some L)).limitReached = some L :=
    Option.mem_filter_iff.2 ⟨rfl, decide_eq_true used⟩
  have stopped : (m.withLimit (some L)).step filter out = _ := step_eq_iff.2 (.stopped running reached)
  simp only [run?, turnsNeeded, proceed, stopped, Progress.ended?]
  simp [withLimit]

/-- A run under a limit returns. Halting counts up to the limit itself, a fault only below it; what
the limit cuts off is all that raising it changes. -/
theorem run_under_limit (filter : Log.Filter) (L : Nat) {m : Machine} {out : σ}
    (running : m.state = .running) (accepts : Sink.NeverFails out) :
    ∃ o, (m.withLimit (some L)).run? filter out = some o ∧ LimitedRun filter L m out o := by
  obtain ⟨o, ended⟩ : ∃ o, proceed filter (m.withLimit (some L)).turnsNeeded (m.withLimit (some L))
      out (filter.emit (.running m.pc)).toArray = .ended o :=
    proceed_ends rfl (Nat.lt_succ_self (L - m.steps))
  have run : (m.withLimit (some L)).run? filter out = some o := congrArg Progress.ended? ended
  have ending := limitedEnding_run running accepts run
  refine ⟨o, run, ending.of_halts, ending.of_faults, fun unhalted unfaulted => ?_,
    fun le unstopped => ?_, fun le unstopped => ?_, fun used => ?_, fun steps on ok => ?_⟩
  · cases ending with
    | halts execution within => exact absurd within (unhalted _ _ _ execution)
    | faults execution within => exact absurd within (unfaulted _ _ _ _ execution)
    | stops execution _ result machine count => exact ⟨result, count, _, execution, machine⟩
  · exact run?_withLimit run unstopped (asLoose_some le) le
  · exact run?_withLimit run unstopped (asLoose_none _) (by simp only [Option.getD_none]; omega)
  · exact Option.some.inj (run.symm.trans (run?_of_le running used))
  · obtain ⟨halted, -⟩ | ⟨-, reached, -, count⟩ := step_ok_cases ok
    · cases on.symm.trans halted
    · exact ⟨count, (limitReached_eq_none_iff (limit_of_steps? steps)).1 reached⟩

theorem twelve_under_limit :
    (loaded twelve).state = .running ∧ Sink.NeverFails ({} : Buffer) ∧
      (∃ o, ((loaded twelve).withLimit (some 3)).run? .silent ({} : Buffer) = some o ∧
        o.result = .ok 3 ∧ o.sink.text = "12\n" ∧
        ((loaded twelve).withLimit (some 4)).run? .silent ({} : Buffer) =
          some (o.withLimit (some 4))) ∧
      ∃ o, ((loaded twelve).withLimit (some 2)).run? .silent ({} : Buffer) = some o ∧
        o.result = .error (.stepLimitExceeded 2) ∧ o.machine.steps = 2 := by
  have accepts : Sink.NeverFails ({} : Buffer) := Buffer.neverFails rfl rfl
  have ends : (steps? .silent 3 ((loaded twelve).withLimit none) ({} : Buffer)).map
      (fun s => (s.1.state, s.1.steps, s.2.text)) = some (.halted, 3, "12\n") := by
    decide +kernel
  obtain ⟨⟨m, out⟩, steps, last⟩ := Option.map_eq_some_iff.1 ends
  simp only [Prod.mk.injEq] at last
  obtain ⟨halted, count, text⟩ := last
  have execution : Executes .silent 3 (loaded twelve) ({} : Buffer) m out := ⟨steps, count⟩
  refine ⟨rfl, accepts, ?_, ?_⟩
  · obtain ⟨o, run, limited⟩ := run_under_limit .silent 3 (m := loaded twelve) rfl accepts
    obtain ⟨result, -, sink⟩ := limited.halts ⟨execution, halted⟩ (Nat.le_refl 3)
    have same : (Sink.flush out).1.text = out.text := Buffer.view.text_of_flush out
    exact ⟨o, run, result, by rw [sink, same, text],
      limited.raised (by omega) (by rw [result]; nofun)⟩
  · obtain ⟨o, run, limited⟩ := run_under_limit .silent 2 (m := loaded twelve) rfl accepts
    obtain ⟨result, steps, -⟩ := limited.stops
      (fun n m' out' h within => by
        have late := execution.le_of_stopped h.1 (.inl h.2)
        have fresh : (loaded twelve).steps = 0 := rfl
        omega)
      (fun n f m' out' h within => by
        have late := execution.le_of_stopped h.1 (.inr ⟨f, h.2⟩)
        omega)
    exact ⟨o, run, result, steps⟩

end Machine
end ByteCpu
