import ByteCpu.Proofs.Machine.Stack

/-!
Writes to memory. The main statement is that a cell holds what the latest push or call has put
there, or else what it was loaded with; so code below every push stays as it is.
-/

set_option autoImplicit false

namespace ByteCpu

namespace Memory

theorem getElem?_toList (m : Memory) {k : Nat} (h : k < 256) :
    m.toList[k]? = some (m.get (UInt8.ofNat k)) := by
  rw [← read_eq_ok_iff, ← read_toNat, UInt8.toNat_ofNat_of_lt' h]

theorem take_toList_eq {m m' : Memory} {n : Nat}
    (h : ∀ a : UInt8, a.toNat < n → m.get a = m'.get a) : m.toList.take n = m'.toList.take n := by
  refine List.ext_getElem? fun k => ?_
  rw [List.getElem?_take, List.getElem?_take]
  by_cases below : k < n
  · by_cases inside : k < 256
    · have number : (UInt8.ofNat k).toNat < n := by
        rw [UInt8.toNat_ofNat']
        omega
      rw [getElem?_toList m inside, getElem?_toList m' inside, h _ number]
    · rw [List.getElem?_eq_none (by simp; omega), List.getElem?_eq_none (by simp; omega)]
  · rw [if_neg below, if_neg below]

end Memory

namespace Machine

theorem get_loaded (program : List UInt8) (a : UInt8) :
    (loaded program).memory.get a = program[a.toNat]?.getD 0 := by
  simp [loaded, Memory.get]

theorem toList_loaded {program : List UInt8} (fits : program.length ≤ 256) :
    (loaded program).memory.toList = program ++ List.replicate (256 - program.length) 0 := by
  refine List.ext_getElem? fun k => ?_
  by_cases inside : k < 256
  · rw [Memory.getElem?_toList _ inside, get_loaded, UInt8.toNat_ofNat_of_lt' inside,
      List.getElem?_append]
    split
    next h => rw [List.getElem?_eq_getElem h, Option.getD_some]
    next h =>
      rw [List.getElem?_eq_none (by omega), List.getElem?_replicate, if_pos (by omega),
        Option.getD_none]
  · rw [List.getElem?_eq_none (by simp; omega), List.getElem?_eq_none (by simp; omega)]

end Machine

namespace Occurrence

theorem pushed?_eq_none {e : Occurrence} (h : e.instr.pushes = false) : e.pushed? = none := by
  unfold pushed?
  cases hi : e.instr with
  | push | call =>
    rw [hi] at h
    cases h
  | hlt | ret | pop | prn | jmp | jeq | jne | ldi | alu => rfl

def storedAt? (a : UInt8) (e : Occurrence) : Option UInt8 :=
  if e.before.registers.sp - 1 = a then e.pushed? else none

theorem storedAt?_eq_none {a : UInt8} {e : Occurrence}
    (h : e.instr.pushes = true → e.before.registers.sp - 1 ≠ a) : e.storedAt? a = none := by
  unfold storedAt?
  cases pushes : e.instr.pushes with
  | true => rw [if_neg (h pushes)]
  | false => rw [pushed?_eq_none pushes, ite_self]

end Occurrence

namespace Machine

theorem get_after (m : Machine) (i : Instr) (a : UInt8) :
    some ((m.after i).memory.get a) =
      (Occurrence.storedAt? a ⟨m, i, m.after i⟩).or (some (m.memory.get a)) := by
  cases pushes : i.pushes with
  | false =>
    have quiet : Occurrence.storedAt? a ⟨m, i, m.after i⟩ = none :=
      Occurrence.storedAt?_eq_none fun h => absurd (pushes.symm.trans h) nofun
    rw [memory_after pushes, quiet, Option.none_or]
  | true =>
    obtain ⟨v, byte, memory, -⟩ := after_of_pushes (m := m) pushes
    unfold Occurrence.storedAt?
    rw [memory, byte]
    by_cases here : m.registers.sp - 1 = a
    · rw [if_pos here, here, Memory.get_set_self, Option.some_or]
    · rw [if_neg here, Memory.get_set_of_ne _ _ here, Option.none_or]

theorem Calls.get_eq {m₀ m : Machine} {tr : List Occurrence} {es : List Sink.Event}
    (calls : Calls m₀ tr es m) (a : UInt8) :
    some (m.memory.get a) = (latest? (Occurrence.storedAt? a) tr).or (some (m₀.memory.get a)) :=
  calls.eq_latest (fun m => some (m.memory.get a)) (fun _ _ => rfl) fun m i => m.get_after i a

theorem Calls.get_eq_start {m₀ m : Machine} {tr : List Occurrence} {es : List Sink.Event}
    (calls : Calls m₀ tr es m) {a : UInt8}
    (untouched : ∀ e ∈ tr, e.instr.pushes = true → e.before.registers.sp - 1 ≠ a) :
    m.memory.get a = m₀.memory.get a := by
  have quiet : latest? (Occurrence.storedAt? a) tr = none :=
    latest?_eq_none_iff.2 fun e he => Occurrence.storedAt?_eq_none (untouched e he)
  have same := calls.get_eq a
  rwa [quiet, Option.none_or, Option.some.injEq] at same

theorem memory_step {σ : Type} [Sink σ] (filter : Log.Filter) (m : Machine) (out : σ) :
    (m.step filter out).machine.memory = m.memory ∨
      ∃ i v s, m.state = .running ∧ m.Holds i ∧ i.pushes = true ∧
        (m.step filter out).result = .ok s ∧ Occurrence.pushed? ⟨m, i, m.after i⟩ = some v ∧
        (m.step filter out).machine.memory = m.memory.set (m.registers.sp - 1) v := by
  obtain same | ⟨i, s, state, next, ok, machine⟩ := step_machine_cases filter m out
  · exact .inl (congrArg memory same)
  · rw [machine]
    cases pushes : i.pushes with
    | false => exact .inl (memory_after pushes)
    | true =>
      obtain ⟨v, byte, memory, -⟩ := after_of_pushes (m := m) pushes
      exact .inr ⟨i, v, s, state, (next_eq_ok_iff.1 next).1, pushes, ok, byte, memory⟩

/-- A cell keeps what it was loaded with until a push or a call writes it, and then holds the byte
of the latest one that did. A turn writes one cell if it pushes or calls, and else none; so what
lies below every push is as it was loaded. -/
theorem memory_is_written_by_pushes {program : List UInt8} {m₀ m : Machine}
    {tr : List Occurrence} {es : List Sink.Event} (load : withProgram program = .ok m₀)
    (calls : Calls m₀ tr es m) :
    (∀ a : UInt8,
      ((∀ e ∈ tr, e.instr.pushes = true → e.before.registers.sp - 1 ≠ a) →
        m.memory.get a = program[a.toNat]?.getD 0) ∧
      ∀ p e q, tr = p ++ e :: q → e.instr.pushes = true → e.before.registers.sp - 1 = a →
        (∀ e' ∈ q, e'.instr.pushes = true → e'.before.registers.sp - 1 ≠ a) →
          e.pushed? = some (m.memory.get a)) ∧
    (∀ {σ : Type} [Sink σ] (filter : Log.Filter) (out : σ),
      (m.step filter out).machine.memory = m.memory ∨
        ∃ i v s, m.state = .running ∧ m.Holds i ∧ i.pushes = true ∧
          (m.step filter out).result = .ok s ∧ Occurrence.pushed? ⟨m, i, m.after i⟩ = some v ∧
          (m.step filter out).machine.memory = m.memory.set (m.registers.sp - 1) v) ∧
    ∀ n, (∀ e ∈ tr, e.instr.pushes = true → n ≤ (e.before.registers.sp - 1).toNat) →
      m.memory.toList.take n =
        (program ++ List.replicate (256 - program.length) 0).take n := by
  obtain ⟨fits, rfl⟩ := withProgram_eq_ok_iff.1 load
  refine ⟨fun a => ⟨fun untouched => ?_, fun p e q split pushes here later => ?_⟩,
    fun filter out => memory_step filter m out, fun n above => ?_⟩
  · rw [calls.get_eq_start untouched, get_loaded]
  · obtain ⟨v, byte⟩ : ∃ v, e.pushed? = some v := by
      subst split
      obtain ⟨-, -, -, -, after⟩ := calls.upTo
      obtain ⟨v, byte, -⟩ := after_of_pushes (m := e.before) pushes
      rw [← after] at byte
      exact ⟨v, byte⟩
    have stored : e.storedAt? a = some v := by rw [Occurrence.storedAt?, if_pos here, byte]
    have quiet : ∀ e' ∈ q, e'.storedAt? a = none :=
      fun e' he => Occurrence.storedAt?_eq_none (later e' he)
    rw [calls.get_eq, split, latest?_eq_some stored quiet, byte, Option.some_or]
  · rw [← toList_loaded fits]
    refine Memory.take_toList_eq fun a below => calls.get_eq_start fun e he pushes here => ?_
    have high := above e he pushes
    rw [here] at high
    omega

/-- Pushes a halting instruction to the cell behind its own last one. -/
def writesItsHalt : List UInt8 :=
  [Opcode.ldi.byte, 7, 9, Opcode.ldi.byte, 0, Opcode.hlt.byte, Opcode.push.byte, 0]

theorem writesItsHalt_is_written_by_pushes :
    ∃ o, (loaded writesItsHalt).run? .silent ({} : Buffer) = some o ∧ o.result = .ok 4 ∧
      o.machine.memory.get 8 = Opcode.hlt.byte ∧ o.machine.memory.get 9 = 0 ∧
      o.machine.memory.toList.take 8 = writesItsHalt := by
  have load : withProgram writesItsHalt = .ok (loaded writesItsHalt) :=
    withProgram_eq_ok_iff.2 ⟨by decide +kernel, rfl⟩
  have halts : ((loaded writesItsHalt).run? .silent ({} : Buffer)).map (·.result.toOption) =
      some (some 4) := by
    decide +kernel
  obtain ⟨o, run, result⟩ := Option.map_eq_some_iff.1 halts
  have four : o.result = .ok 4 := by
    cases h : o.result <;> simp_all [Except.toOption]
  have calls := (Calls.refl : Calls (loaded writesItsHalt) [] [] _).run .silent ({} : Buffer) run
  rw [List.nil_append] at calls
  have third : ((loaded writesItsHalt).runTrace .silent ({} : Buffer))[2]?.map
      (fun e => (e.instr.pushes, e.before.registers.sp - 1, e.pushed?)) =
        some (true, 8, some Opcode.hlt.byte) := by
    decide +kernel
  obtain ⟨e, at2, shape⟩ := Option.map_eq_some_iff.1 third
  simp only [Prod.mk.injEq] at shape
  obtain ⟨pushes, here, byte⟩ := shape
  obtain ⟨cells, -, code⟩ := memory_is_written_by_pushes load calls
  have last := (cells 8).2 _ e _ (eq_take_append_drop at2) pushes here (by decide +kernel)
  rw [byte, Option.some.injEq] at last
  exact ⟨o, run, four, last.symm, (cells 9).1 (by decide +kernel), code 8 (by decide +kernel)⟩

end Machine
end ByteCpu
