import ByteCpu.Proofs.Machine.Counter
import ByteCpu.Proofs.Machine.Limits

/-!
Straight code. An instruction that neither jumps nor halts moves the program counter on by at least
two, and the counter does not leave memory, so that only so many instructions come between two jumps
and code without jumps comes to an end, whatever it writes to memory.
-/

set_option autoImplicit false

namespace ByteCpu

def Occurrence.transfers (e : Occurrence) : Bool := e.before.jumps e.instr

def Straight (tr : List Occurrence) : Prop := ∀ e ∈ tr, e.transfers = false

instance (tr : List Occurrence) : Decidable (Straight tr) :=
  inferInstanceAs (Decidable (∀ e ∈ tr, e.transfers = false))

theorem straight_nil : Straight [] := List.forall_mem_nil _

theorem straight_concat {tr : List Occurrence} {e : Occurrence} :
    Straight (tr ++ [e]) ↔ Straight tr ∧ e.transfers = false := by
  simp [Straight, or_imp, forall_and]

namespace Machine

theorem pc_add_two_le {m : Machine} {i : Instr} (stays : m.jumps i = false) (other : i ≠ .hlt) :
    m.pc + 2 ≤ (m.after i).pc := by
  rw [pc_after_of_not_jumps stays other]
  cases i with
  | hlt => exact absurd rfl other
  | ret | call | jmp => cases stays
  | push | pop | prn | jeq | jne | ldi | alu =>
    simp [Instr.opcode, Opcode.width, Opcode.operandCount]

/-- The program counter has moved on by two for each instruction since a transfer. -/
theorem Calls.pc_of_straight {m₀ m : Machine} {tr : List Occurrence} {es : List Sink.Event}
    (calls : Calls m₀ tr es m) (running : m.state = .running) {before straight : List Occurrence}
    (cut : tr = before ++ straight) (h : Straight straight) : 2 * straight.length ≤ m.pc := by
  refine calls.keeps (P := fun tr m => m.state = .running → ∀ before straight,
    tr = before ++ straight → Straight straight → 2 * straight.length ≤ m.pc) ?_ ?_ ?_
    running before straight cut h
  · intro _ before straight cut _
    have none : straight = [] := (List.append_eq_nil_iff.1 cut.symm).2
    simp [none]
  · exact fun tr m l kept => kept
  · intro tr m i state _ next kept running before straight cut h
    obtain rfl | ⟨earlier, e, rfl⟩ := List.eq_nil_or_concat straight
    · simp
    · rw [List.concat_eq_append, ← List.append_assoc] at cut
      obtain ⟨rfl, last⟩ := List.append_inj' cut rfl
      obtain rfl := (List.cons.inj last).1
      rw [List.concat_eq_append] at h ⊢
      have stays : m.jumps i = false := (straight_concat.1 h).2
      have other : i ≠ .hlt := by
        rintro rfl
        cases running
      have far : 2 * earlier.length ≤ m.pc := kept state before earlier rfl (straight_concat.1 h).1
      have moved := pc_add_two_le stays other
      rw [List.length_append, List.length_singleton]
      omega

theorem Calls.length_of_straight {m₀ m : Machine} {before straight after : List Occurrence}
    {e : Occurrence} {es : List Sink.Event}
    (calls : Calls m₀ (before ++ straight ++ e :: after) es m) (h : Straight straight) :
    straight.length ≤ 127 := by
  obtain ⟨es', upTo, state, next, -⟩ := calls.upTo
  have far := upTo.pc_of_straight state rfl h
  have inside := (next_eq_ok_iff.1 next).1.pc_add_width_le
  have wide := e.instr.opcode.width_pos
  omega

theorem Calls.length_of_straight_append {m₀ m : Machine}
    {before straight after : List Occurrence} {es : List Sink.Event}
    (calls : Calls m₀ (before ++ straight ++ after) es m) (h : Straight straight) :
    straight.length ≤ 128 := by
  obtain rfl | ⟨earlier, e, rfl⟩ := List.eq_nil_or_concat straight
  · simp
  · rw [List.concat_eq_append] at calls h ⊢
    rw [← List.append_assoc, List.append_assoc, List.singleton_append] at calls
    have few := calls.length_of_straight (straight_concat.1 h).1
    rw [List.length_append, List.length_singleton]
    omega

section
variable {σ : Type} [Sink σ] {filter : Log.Filter}

/-- Straight code goes no further: the machine has halted, its turn fails though the limit allows
it, or the turn transfers control. -/
inductive Stops (filter : Log.Filter) (m : Machine) (out : σ) : Prop
  | halted (state : m.state = .halted)
  | fault {f : Fault} (state : m.state = .running) (reached : m.limitReached = none)
      (error : (m.step filter out).result = .error f)
  | transfer {i : Instr} {s : State} (state : m.state = .running) (holds : m.Holds i)
      (jumps : m.jumps i = true) (ok : (m.step filter out).result = .ok s)

theorem Stretch.limit_eq {m₀ m : Machine} {out₀ out : σ} {tr : List Occurrence}
    (h : Stretch m₀ out₀ tr m out) : m.limit = m₀.limit := by
  induction h with
  | refl => rfl
  | instr _ _ _ _ _ ih => rw [limit_after, ih]

theorem exists_straight (filter : Log.Filter) {m₀ : Machine} (unlimited : m₀.limit = none)
    (out₀ : σ) (n : Nat) :
    ∃ tr m out, Stretch m₀ out₀ tr m out ∧ Straight tr ∧ (tr.length = n ∨ Stops filter m out) := by
  induction n with
  | zero => exact ⟨[], m₀, out₀, .refl, straight_nil, .inl rfl⟩
  | succ n ih =>
    obtain ⟨tr, m, out, stretch, straight, count | stops⟩ := ih
    · cases state : m.state with
      | halted => exact ⟨tr, m, out, stretch, straight, .inr (.halted state)⟩
      | running =>
        cases result : (m.step filter out).result with
        | error f =>
          have reached : m.limitReached = none := by
            rw [limitReached, stretch.limit_eq, unlimited]
            rfl
          exact ⟨tr, m, out, stretch, straight, .inr (.fault state reached result)⟩
        | ok s =>
          obtain ⟨i, reached, next, -, -, accepts⟩ := step_ok state result
          cases jumps : m.jumps i with
          | true =>
            have holds := (next_eq_ok_iff.1 next).1
            exact ⟨tr, m, out, stretch, straight, .inr (.transfer state holds jumps result)⟩
          | false =>
            have longer := stretch.instr state reached next accepts
            refine ⟨_, _, _, longer, straight_concat.2 ⟨straight, jumps⟩, .inl ?_⟩
            rw [List.length_append, List.length_singleton, count]
    · exact ⟨tr, m, out, stretch, straight, .inr stops⟩

end

/-- Of the instructions that a machine carries out, at most 128 come one after another that do not
transfer control, and at most 127 between two that do. Without a limit, such code stops with any
sink: it halts, fails or transfers control. -/
theorem straight_code_stops (m₀ : Machine) :
    (∀ before straight after es m, Calls m₀ (before ++ straight ++ after) es m →
      Straight straight → straight.length ≤ 128) ∧
    (∀ before e straight f after es m, Calls m₀ (before ++ e :: (straight ++ f :: after)) es m →
      e.transfers = true → f.transfers = true → Straight straight → straight.length ≤ 127) ∧
    ∀ {σ : Type} [Sink σ] (filter : Log.Filter) (out₀ : σ), m₀.limit = none →
      ∃ tr m out, Stretch m₀ out₀ tr m out ∧ Straight tr ∧ tr.length ≤ 128 ∧
        Stops filter m out := by
  refine ⟨fun _ _ _ _ _ calls h => calls.length_of_straight_append h,
    fun before e straight f after es m calls _ _ h => ?_,
    fun filter out₀ unlimited => ?_⟩
  · rw [← List.singleton_append, ← List.append_assoc, ← List.append_assoc] at calls
    exact calls.length_of_straight h
  · obtain ⟨tr, m, out, stretch, straight, ends⟩ := exists_straight filter unlimited out₀ 129
    obtain ⟨es, calls⟩ := stretch.calls
    have whole : Calls m₀ ([] ++ tr ++ []) es m := by simpa using calls
    have most := whole.length_of_straight_append straight
    refine ⟨tr, m, out, stretch, straight, most, ends.resolve_left fun count => ?_⟩
    omega

def printsForever : List UInt8 :=
  [Opcode.prn.byte, 0, Opcode.push.byte, 0, Opcode.jmp.byte, 1]

theorem printsForever_is_straight_between_jumps :
    let start := loaded printsForever
    let tr := (turns 6 start).1
    ∃ before e straight f after, tr = before ++ e :: (straight ++ f :: after) ∧
      e.transfers = true ∧ f.transfers = true ∧ Straight straight ∧
      straight.map (·.instr) = [.prn 0, .push 0] ∧ straight.length ≤ 127 ∧
      Straight before ∧ before.length ≤ 128 ∧
      start.limit = none ∧ ∃ tr m out, Stretch start ({} : Buffer) tr m out ∧ Straight tr ∧
        tr.length ≤ 128 ∧ Stops .silent m out := by
  intro start tr
  obtain ⟨es, calls⟩ : ∃ es, Calls start tr es _ := calls_turns 6 start
  have third : tr[2]?.map (·.transfers) = some true := by decide +kernel
  have sixth : (tr.drop 3)[2]?.map (·.transfers) = some true := by decide +kernel
  obtain ⟨e, at2, jump⟩ := Option.map_eq_some_iff.1 third
  obtain ⟨f, at5, again⟩ := Option.map_eq_some_iff.1 sixth
  have first : Straight (tr.take 2) := by decide +kernel
  have second : Straight ((tr.drop 3).take 2) := by decide +kernel
  have cut : tr = tr.take 2 ++ e :: ((tr.drop 3).take 2 ++ f :: (tr.drop 3).drop 3) := by
    rw [← eq_take_append_drop at5]
    exact eq_take_append_drop at2
  have whole : tr = [] ++ tr.take 2 ++ tr.drop 2 := by simp
  obtain ⟨most, between, stops⟩ := straight_code_stops start
  refine ⟨_, e, _, f, _, cut, jump, again, second, by decide +kernel, ?_, first, ?_, rfl,
    stops .silent ({} : Buffer) rfl⟩
  · exact between _ e _ f _ _ _ (cut ▸ calls) jump again second
  · exact most [] _ _ _ _ (whole ▸ calls) first

end Machine
end ByteCpu
