import ByteCpu.Proofs.Machine.Calls

/-!
The flags of a machine and the jumps that depend on them. The main statement is that the flags are
those of the latest comparison carried out, and that conditional jumps are refused just as long as
there has been none.
-/

set_option autoImplicit false

namespace ByteCpu

/-- Just one flag is set, by how the bytes compare as unsigned numbers. -/
structure Flags.Tells (f : Flags) (x y : UInt8) : Prop where
  equal : f.equal = true ↔ x.toNat = y.toNat
  less : f.less = true ↔ x.toNat < y.toNat
  greater : f.greater = true ↔ y.toNat < x.toNat
  one : [f.equal, f.less, f.greater].count true = 1

theorem Flags.tells_compare (x y : UInt8) : (compare x y).Tells x y := by
  have equal : (compare x y).equal = true ↔ x.toNat = y.toNat := by
    rw [compare, decide_eq_true_iff, UInt8.toNat_inj]
  have less : (compare x y).less = true ↔ x.toNat < y.toNat := by
    rw [compare, decide_eq_true_iff, UInt8.lt_iff_toNat_lt]
  have greater : (compare x y).greater = true ↔ y.toNat < x.toNat := by
    rw [compare, decide_eq_true_iff, gt_iff_lt, UInt8.lt_iff_toNat_lt]
  refine ⟨equal, less, greater, ?_⟩
  generalize compare x y = f at equal less greater
  obtain ⟨e, l, g⟩ := f
  obtain h | h | h := Nat.lt_trichotomy x.toNat y.toNat
  · have values : e = false ∧ l = true ∧ g = false := by grind
    simp [values]
  · have values : e = true ∧ l = false ∧ g = false := by grind
    simp [values]
  · have values : e = false ∧ l = false ∧ g = true := by grind
    simp [values]

def Instr.compares : Instr → Bool
  | alu .cmp _ _ => true
  | _ => false

def Occurrence.flagsSet? (e : Occurrence) : Option Flags :=
  match e.instr with
  | .alu .cmp a b => some (Flags.compare (e.before.registers.get a) (e.before.registers.get b))
  | _ => none

theorem Occurrence.flagsSet?_eq_none_iff {e : Occurrence} :
    e.flagsSet? = none ↔ e.instr.compares = false := by
  unfold flagsSet?
  cases e.instr with
  | alu op a b => cases op <;> simp [Instr.compares]
  | hlt | ret | push | pop | prn | call | jmp | jeq | jne | ldi => simp [Instr.compares]

theorem Memory.HoldsAt.set_below {m : Memory} {a : UInt8} {b : Nat} {bs : List UInt8}
    (h : m.HoldsAt b bs) (below : a.toNat < b) (v : UInt8) : (m.set a v).HoldsAt b bs := by
  have cells : (m.set a v).toList = m.toList.set a.toNat v := Vector.toList_set a.toNat_lt
  rwa [HoldsAt, cells, List.drop_set_of_lt below]

namespace Machine

theorem flags_after (m : Machine) (i : Instr) :
    (m.after i).flags = (Occurrence.flagsSet? ⟨m, i, m.after i⟩).or m.flags := by
  cases i with
  | alu op a b => cases op <;> rfl
  | hlt | ret | push | pop | prn | call | jmp | jeq | jne | ldi => rfl

theorem Calls.flags_eq {m₀ m : Machine} {tr : List Occurrence} {es : List Sink.Event}
    (calls : Calls m₀ tr es m) : m.flags = (latest? Occurrence.flagsSet? tr).or m₀.flags :=
  calls.eq_latest flags (fun _ _ => rfl) flags_after

theorem flags_step {σ : Type} [Sink σ] (filter : Log.Filter) (m : Machine) (out : σ) :
    (m.step filter out).machine.flags = m.flags ∨
      ∃ a b s, m.state = .running ∧ m.Holds (.alu .cmp a b) ∧
        (m.step filter out).result = .ok s ∧
        (m.step filter out).machine.flags =
          some (Flags.compare (m.registers.get a) (m.registers.get b)) := by
  obtain same | ⟨i, s, state, next, ok, machine⟩ := step_machine_cases filter m out
  · exact .inl (congrArg flags same)
  · rw [machine]
    cases compares : i.compares with
    | false =>
      rw [flags_after, Occurrence.flagsSet?_eq_none_iff.2 compares]
      exact .inl rfl
    | true =>
      cases i with
      | alu op a b =>
        cases op with
        | cmp => exact .inr ⟨a, b, s, state, (next_eq_ok_iff.1 next).1, ok, rfl⟩
        | add | sub | mul | div => cases compares
      | hlt | ret | push | pop | prn | call | jmp | jeq | jne | ldi => cases compares

def withOpcode (m : Machine) (op : Opcode) : Machine :=
  { m with memory := m.memory.set (UInt8.ofNat m.pc) op.byte }

theorem Holds.withOpcode {m : Machine} {i j : Instr} (h : m.Holds i)
    (same : j.operands = i.operands) : (m.withOpcode j.opcode).Holds j := by
  have inside := h.pc_add_width_le
  have wide := i.opcode.width_pos
  have number : (UInt8.ofNat m.pc).toNat = m.pc := by
    rw [UInt8.toNat_ofNat']
    omega
  obtain ⟨-, operands⟩ := Memory.holdsAt_cons.1 h
  refine Memory.holdsAt_cons.2 ⟨?_, ?_⟩
  · have here := Memory.read_toNat (m.memory.set (UInt8.ofNat m.pc) j.opcode.byte) (UInt8.ofNat m.pc)
    rwa [Memory.get_set_self, number] at here
  · rw [same]
    exact operands.set_below (by omega) _

/-- With one opcode at the program counter a turn goes on at the register's address, with the other
behind the instruction. -/
structure Parts {σ : Type} [Sink σ] (filter : Log.Filter) (m : Machine) (out : σ) (r : Reg)
    (taken untaken : Opcode) : Prop where
  jumps : ((m.withOpcode taken).step filter out).result = .ok .running ∧
    ((m.withOpcode taken).step filter out).machine.pc = (m.registers.get r).toNat
  passes : ((m.withOpcode untaken).step filter out).result = .ok .running ∧
    ((m.withOpcode untaken).step filter out).machine.pc = m.pc + 2

section
variable {σ : Type} [Sink σ] {m : Machine} {r : Reg}

theorem step_eq_flagsUninitialized_iff (filter : Log.Filter) (out : σ) (state : m.state = .running)
    (reached : m.limitReached = none) (holds : m.Holds (.jeq r) ∨ m.Holds (.jne r)) :
    (m.step filter out).result = .error .flagsUninitialized ↔ m.flags = none := by
  obtain ⟨i, here, refusal, printed⟩ : ∃ i, m.Holds i ∧
      m.refusal? i = (if m.flags = none then some .flagsUninitialized else none) ∧
      m.printed? i = none := by
    obtain here | here := holds
    · exact ⟨_, here, rfl, rfl⟩
    · exact ⟨_, here, rfl, rfl⟩
  by_cases flags : m.flags = none
  · have next : m.next = .error .flagsUninitialized := by
      simp only [next, fetch_eq_ok_iff.2 here, bind_ok, refusal, if_pos flags]
    rw [step_eq_iff.2 (.refused state reached next)]
    simp [flags]
  · have next : m.next = .ok i := next_eq_ok_iff.2 ⟨here, by rw [refusal, if_neg flags]⟩
    rw [step_eq_iff.2 (.silent state reached next printed)]
    simp [flags]

theorem step_of_conditional (filter : Log.Filter) (out : σ) {i : Instr} {equal : Bool} {f : Flags}
    (kind : i = .jeq r ∧ equal = true ∨ i = .jne r ∧ equal = false) (state : m.state = .running)
    (reached : m.limitReached = none) (here : m.Holds i) (flags : m.flags = some f) :
    (m.step filter out).result = .ok .running ∧
      (m.step filter out).machine.pc =
        if f.equal = equal then (m.registers.get r).toNat else m.pc + 2 := by
  obtain ⟨free, printed⟩ : m.refusal? i = none ∧ m.printed? i = none := by
    obtain ⟨rfl, -⟩ | ⟨rfl, -⟩ := kind
    · simp [refusal?, printed?, flags]
    · simp [refusal?, printed?, flags]
  rw [step_eq_iff.2 (.silent state reached (next_eq_ok_iff.2 ⟨here, free⟩) printed)]
  obtain ⟨rfl, rfl⟩ | ⟨rfl, rfl⟩ := kind
  · simp [after, flags, state]
  · simp [after, flags, state]

theorem parts_of_flags (filter : Log.Filter) (out : σ) {f : Flags} (state : m.state = .running)
    (reached : m.limitReached = none) (holds : m.Holds (.jeq r) ∨ m.Holds (.jne r))
    (flags : m.flags = some f) :
    if f.equal then m.Parts filter out r .jeq .jne else m.Parts filter out r .jne .jeq := by
  have jeq : (m.withOpcode .jeq).Holds (.jeq r) := holds.elim (·.withOpcode rfl) (·.withOpcode rfl)
  have jne : (m.withOpcode .jne).Holds (.jne r) := holds.elim (·.withOpcode rfl) (·.withOpcode rfl)
  have onEqual := step_of_conditional (m := m.withOpcode .jeq) filter out (.inl ⟨rfl, rfl⟩)
    state reached jeq flags
  have onUnequal := step_of_conditional (m := m.withOpcode .jne) filter out (.inr ⟨rfl, rfl⟩)
    state reached jne flags
  cases equal : f.equal with
  | true =>
    simp only [equal] at onEqual onUnequal
    exact ⟨onEqual, onUnequal⟩
  | false =>
    simp only [equal] at onEqual onUnequal
    exact ⟨onUnequal, onEqual⟩

end

/-- A reachable machine has flags just if the calls on it have carried out a comparison, and they
tell of the latest one; nothing but a comparison sets them. Until then conditional jumps are
refused, and from then on just one of the two opcodes makes the machine jump. -/
theorem flags_tell_latest_comparison {m₀ m : Machine} {tr : List Occurrence}
    {es : List Sink.Event} (fresh : Fresh m₀) (calls : Calls m₀ tr es m) :
    (m.flags = none ↔ ∀ e ∈ tr, e.instr.compares = false) ∧
    (∀ p e q a b, tr = p ++ e :: q → e.instr = .alu .cmp a b →
      (∀ e' ∈ q, e'.instr.compares = false) →
        let x := e.before.registers.get a
        let y := e.before.registers.get b
        m.flags = some (Flags.compare x y) ∧ (Flags.compare x y).Tells x y) ∧
    (∀ {σ : Type} [Sink σ] (filter : Log.Filter) (out : σ),
      (m.step filter out).machine.flags = m.flags ∨
        ∃ a b s, m.state = .running ∧ m.Holds (.alu .cmp a b) ∧
          (m.step filter out).result = .ok s ∧
          (m.step filter out).machine.flags =
            some (Flags.compare (m.registers.get a) (m.registers.get b))) ∧
    (∀ limit, (m.withLimit limit).flags = m.flags) ∧
    ∀ {σ : Type} [Sink σ] (filter : Log.Filter) (out : σ) (r : Reg),
      m.state = .running → m.limitReached = none → (m.Holds (.jeq r) ∨ m.Holds (.jne r)) →
        ((m.step filter out).result = .error .flagsUninitialized ↔
          ∀ e ∈ tr, e.instr.compares = false) ∧
        ((∃ e ∈ tr, e.instr.compares = true) →
          ∃ f, m.flags = some f ∧
            if f.equal then m.Parts filter out r .jeq .jne
            else m.Parts filter out r .jne .jeq) := by
  obtain ⟨memory, rfl⟩ := fresh.exists_memory
  have latest : m.flags = latest? Occurrence.flagsSet? tr := by
    rw [calls.flags_eq, Option.or_none]
  have unset : m.flags = none ↔ ∀ e ∈ tr, e.instr.compares = false := by
    simp only [latest, latest?_eq_none_iff, Occurrence.flagsSet?_eq_none_iff]
  refine ⟨unset, fun p e q a b split compare later => ⟨?_, Flags.tells_compare _ _⟩,
    fun filter out => flags_step filter m out, fun _ => rfl,
    fun filter out r state reached holds => ⟨?_, fun ⟨e, he, compares⟩ => ?_⟩⟩
  · rw [latest, split]
    refine latest?_eq_some ?_ fun e' he => Occurrence.flagsSet?_eq_none_iff.2 (later e' he)
    rw [Occurrence.flagsSet?, compare]
  · rw [step_eq_flagsUninitialized_iff filter out state reached holds, unset]
  · obtain ⟨f, flags⟩ : ∃ f, m.flags = some f := by
      refine Option.ne_none_iff_exists'.1 fun none => ?_
      cases compares.symm.trans (unset.1 none e he)
    exact ⟨f, flags, parts_of_flags filter out state reached holds flags⟩

def jumpsLater : List UInt8 :=
  [Opcode.ldi.byte, 0, 3, (Opcode.alu .cmp).byte, 0, 1, Opcode.ldi.byte, 0, 0, Opcode.jne.byte, 2]

def atLaterJump : Machine := (turns 3 (loaded jumpsLater)).2

theorem atLaterJump_tell_latest_comparison :
    Reachable atLaterJump ∧ atLaterJump.Holds (.jne 2) ∧ atLaterJump.registers.get 0 = 0 ∧
      atLaterJump.flags = some (Flags.compare 3 0) ∧
      atLaterJump.Parts .silent ({} : Buffer) 2 .jne .jeq := by
  have fresh : Fresh (loaded jumpsLater) :=
    .inr ⟨_, withProgram_eq_ok_iff.2 ⟨by decide +kernel, rfl⟩⟩
  obtain ⟨es, calls⟩ : ∃ es,
      Calls (loaded jumpsLater) (turns 3 (loaded jumpsLater)).1 es atLaterJump := calls_turns 3 _
  have reachable : Reachable atLaterJump := ⟨_, _, es, fresh, calls⟩
  have second : (turns 3 (loaded jumpsLater)).1[1]?.map
      (fun e => (e.instr, e.before.registers.get 0, e.before.registers.get 1)) =
        some (.alu .cmp 0 1, 3, 0) := by
    decide +kernel
  obtain ⟨e, at1, shape⟩ := Option.map_eq_some_iff.1 second
  simp only [Prod.mk.injEq] at shape
  obtain ⟨compare, three, zero⟩ := shape
  have holds : atLaterJump.Holds (.jne 2) := by decide +kernel
  obtain ⟨-, latest, -, -, parts⟩ := flags_tell_latest_comparison fresh calls
  obtain ⟨flags, -⟩ := latest _ e _ 0 1 (eq_take_append_drop at1) compare (by decide +kernel)
  rw [three, zero] at flags
  obtain ⟨-, parted⟩ := parts .silent ({} : Buffer) 2 (by decide +kernel) (by decide +kernel)
    (.inr holds)
  obtain ⟨f, same, parted⟩ := parted ⟨e, List.mem_of_getElem? at1, by rw [compare]; rfl⟩
  obtain rfl := Option.some.inj (flags.symm.trans same)
  exact ⟨reachable, holds, by decide +kernel, flags, parted⟩

end Machine
end ByteCpu
