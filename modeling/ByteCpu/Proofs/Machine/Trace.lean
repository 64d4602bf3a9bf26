import ByteCpu.Proofs.Machine.Turn

/-!
Traces: the instructions that the turns of a machine carry out, each with the machine before and
after it.
-/

set_option autoImplicit false

namespace ByteCpu

structure Occurrence where
  before : Machine
  instr : Instr
  after : Machine
  deriving DecidableEq, Repr

theorem eq_take_append_drop {tr : List Occurrence} {k : Nat} {e : Occurrence}
    (here : tr[k]? = some e) : tr = tr.take k ++ e :: tr.drop (k + 1) := by
  obtain ⟨long, there⟩ := List.getElem?_eq_some_iff.1 here
  rw [← there, ← List.drop_eq_getElem_cons, List.take_append_drop]

/-- What `f` gives for the latest instruction for which it gives anything. -/
def latest? {β : Type} (f : Occurrence → Option β) (tr : List Occurrence) : Option β :=
  (tr.filterMap f).getLast?

section
variable {β : Type} {f : Occurrence → Option β}

theorem latest?_concat (tr : List Occurrence) (e : Occurrence) :
    latest? f (tr ++ [e]) = (f e).or (latest? f tr) := by
  cases he : f e with
  | none => simp [latest?, he]
  | some x => simp [latest?, he]

theorem latest?_eq_none_iff {tr : List Occurrence} :
    latest? f tr = none ↔ ∀ e ∈ tr, f e = none := by
  rw [latest?, List.getLast?_eq_none_iff, List.filterMap_eq_nil_iff]

theorem latest?_eq_some {p q : List Occurrence} {e : Occurrence} {x : β} (here : f e = some x)
    (later : ∀ e ∈ q, f e = none) : latest? f (p ++ e :: q) = some x := by
  rw [latest?, List.filterMap_append, List.filterMap_cons_some here,
    List.filterMap_eq_nil_iff.2 later, List.getLast?_concat]

end

namespace Machine

/-- What a turn carries out: one instruction if it succeeds on a running machine, else none. -/
def carriedOut {σ : Type} [Sink σ] (filter : Log.Filter) (m : Machine) (out : σ) :
    List Occurrence :=
  match m.state, m.fetch, (m.step filter out).result with
  | .running, .ok i, .ok _ => [⟨m, i, (m.step filter out).machine⟩]
  | _, _, _ => []

section
variable {σ : Type} [Sink σ]

theorem carriedOut_of_ok {filter : Log.Filter} {m : Machine} {out : σ} {i : Instr} {s : State}
    (state : m.state = .running) (next : m.next = .ok i)
    (ok : (m.step filter out).result = .ok s) :
    m.carriedOut filter out = [⟨m, i, (m.step filter out).machine⟩] := by
  unfold carriedOut
  rw [state, fetch_eq_ok_iff.2 (next_eq_ok_iff.1 next).1, ok]

theorem carriedOut_of_error {filter : Log.Filter} {m : Machine} {out : σ} {f : Fault}
    (error : (m.step filter out).result = .error f) : m.carriedOut filter out = [] := by
  unfold carriedOut
  rw [error]
  cases m.state <;> cases m.fetch <;> rfl

theorem carriedOut_of_halted {filter : Log.Filter} {m : Machine} {out : σ}
    (state : m.state = .halted) : m.carriedOut filter out = [] := by
  unfold carriedOut
  rw [state]

theorem carriedOut_cases (filter : Log.Filter) (m : Machine) (out : σ) :
    m.carriedOut filter out = [] ∧ (m.step filter out).machine = m ∨
      ∃ i, m.state = .running ∧ m.next = .ok i ∧ (m.step filter out).machine = m.after i ∧
        m.carriedOut filter out = [⟨m, i, m.after i⟩] := by
  cases state : m.state with
  | halted => exact .inl ⟨carriedOut_of_halted state, by rw [step_of_halted state]⟩
  | running =>
    cases result : (m.step filter out).result with
    | error f => exact .inl ⟨carriedOut_of_error result, (step_error result).2.1⟩
    | ok s =>
      obtain ⟨i, -, next, machine, -⟩ := step_ok state result
      refine .inr ⟨i, rfl, next, machine, ?_⟩
      rw [carriedOut_of_ok state next result, machine]

end

/-- So many turns with text kept in memory, and what they carry out. -/
def turns : Nat → Machine → List Occurrence × Machine
  | 0, m => ([], m)
  | n + 1, m =>
    let (tr, m) := turns n m
    (tr ++ m.carriedOut .silent ({} : Buffer), (m.step .silent ({} : Buffer)).machine)

end Machine
end ByteCpu
