import ByteCpu.Proofs.Machine.Faults

/-!
The program counter of a reachable machine. It is at most 256, and comes to 256 only behind an
instruction that ends in the last cell; from there on no call changes the machine. A halted machine
stands on the instruction that halted it.
-/

set_option autoImplicit false

namespace ByteCpu.Machine

/-- The instruction sets the program counter: it calls, returns or jumps, and if it jumps on a
condition, the condition holds. -/
def jumps (m : Machine) : Instr → Bool
  | .call _ | .ret | .jmp _ => true
  | .jeq _ => m.flags.any (·.equal)
  | .jne _ => m.flags.any (!·.equal)
  | .hlt | .push _ | .pop _ | .prn _ | .ldi _ _ | .alu _ _ _ => false

theorem pc_after_of_jumps {m : Machine} {i : Instr} (h : m.jumps i = true) :
    (m.after i).pc ≤ 255 := by
  have byte (b : UInt8) : b.toNat ≤ 255 := Nat.le_of_lt_succ b.toNat_lt
  cases i with
  | call | ret | jmp => exact byte _
  | jeq r | jne r =>
    simp only [jumps] at h
    simp only [after, if_pos h]
    exact byte _
  | hlt | push | pop | prn | ldi | alu => cases h

theorem pc_after_of_not_jumps {m : Machine} {i : Instr} (h : m.jumps i = false)
    (other : i ≠ .hlt) : (m.after i).pc = m.pc + i.opcode.width := by
  cases i with
  | call | ret | jmp => cases h
  | jeq r | jne r =>
    simp only [jumps] at h
    simp [after, h, Instr.opcode, Opcode.width, Opcode.operandCount]
  | alu op a b => cases op <;> rfl
  | hlt => exact absurd rfl other
  | push | pop | prn | ldi => rfl

theorem state_after {m : Machine} {i : Instr} (other : i ≠ .hlt) :
    (m.after i).state = m.state := by
  cases i with
  | hlt => exact absurd rfl other
  | alu op a b => cases op <;> rfl
  | push | pop | prn | ldi | call | ret | jmp | jeq | jne => rfl

theorem Reachable.read_of_halted {m : Machine} (h : Reachable m) (halted : m.state = .halted) :
    m.memory.read m.pc = .ok Opcode.hlt.byte := by
  obtain ⟨m₀, tr, es, fresh, calls⟩ := h
  obtain ⟨memory, rfl⟩ := fresh.exists_memory
  refine calls.keeps (P := fun _ m => m.state = .halted → m.memory.read m.pc = .ok Opcode.hlt.byte)
    nofun (fun _ _ _ kept => kept) (fun _ m i running _ next _ halted => ?_) halted
  by_cases h : i = .hlt
  · subst h
    exact (Memory.holdsAt_cons.1 (next_eq_ok_iff.1 next).1).1
  · rw [state_after h, running] at halted
    cases halted

/-- The next machine stands behind the last cell, where an instruction that does not set the program
counter has ended. -/
def PassesEnd (m m' : Machine) : Prop :=
  ∃ i, m.Holds i ∧ m.jumps i = false ∧ i ≠ .hlt ∧ m.pc + i.bytes.length = 256 ∧ m' = m.after i

def offEndFault (m : Machine) : Fault := m.limitFault?.getD (.memoryOutOfRange 256)

section
variable {σ : Type} [Sink σ] {filter : Log.Filter} {m : Machine} {out : σ}

theorem not_holds_of_pc_eq (pc : m.pc = 256) (i : Instr) : ¬m.Holds i := by
  intro holds
  have fits := holds.pc_add_width_le
  have wide := i.opcode.width_pos
  omega

theorem step_of_pc_eq (filter : Log.Filter) (out : σ) (running : m.state = .running)
    (pc : m.pc = 256) : (m.step filter out).result = .error m.offEndFault := by
  rw [← Fault.of?_eq_some_iff, of?_step filter out (by omega) running]
  have counter : m.counterFault? = some (.memoryOutOfRange 256) := if_pos pc
  unfold firstFault? offEndFault
  rw [counter, Option.some_or]
  cases m.limitFault? <;> rfl

theorem run?_of_error {f : Fault} (error : (m.step filter out).result = .error f) :
    ∃ o, m.run? filter out = some o ∧ o.result = .error f := by
  unfold run? turnsNeeded proceed
  cases hs : m.step filter out with
  | mk result m' out' log =>
    rw [hs] at error
    cases error
    exact ⟨_, rfl, rfl⟩

theorem passesEnd_of_step (pc : (m.step filter out).machine.pc = 256) (before : m.pc ≠ 256) :
    m.PassesEnd (m.step filter out).machine := by
  have through {i : Instr} (next : m.next = .ok i) (pc : (m.after i).pc = 256) :
      m.PassesEnd (m.after i) := by
    have holds := (next_eq_ok_iff.1 next).1
    have stays : m.jumps i = false := by
      refine eq_false_of_ne_true fun jumps => ?_
      have low := pc_after_of_jumps jumps
      omega
    have other : i ≠ .hlt := by
      rintro rfl
      exact before pc
    refine ⟨i, holds, stays, other, ?_, rfl⟩
    rw [Instr.length_bytes, ← pc_after_of_not_jumps stays other, pc]
  have ht := turn_step filter m out
  generalize m.step filter out = o at ht pc
  cases ht with
  | halted | stopped | refused | unprinted => exact absurd pc before
  | silent _ _ next | printed _ _ next => exact through next pc

theorem passesEnd_of_steps? {n : Nat} {m' : Machine} {out' : σ}
    (turns : steps? filter n m out = some (m', out')) (pc : m'.pc = 256) (before : m.pc ≠ 256) :
    ∃ k m₁ out₁, steps? filter k m out = some (m₁, out₁) ∧ m₁.PassesEnd m' := by
  induction n generalizing m' out' with
  | zero =>
    cases turns
    exact absurd pc before
  | succ n ih =>
    rw [steps?_add] at turns
    obtain ⟨⟨m₁, out₁⟩, first, last⟩ := Option.bind_eq_some_iff.1 turns
    obtain ⟨⟨s, ok⟩, last⟩ := steps?_succ_iff.1 last
    cases last
    by_cases here : m₁.pc = 256
    · obtain ⟨-, -, same, -⟩ | ⟨running, -⟩ := step_ok_cases ok
      · rw [same]
        exact ih first here
      · rw [step_of_pc_eq filter out₁ running here] at ok
        cases ok
    · exact ⟨n, m₁, out₁, first, passesEnd_of_step pc here⟩

end

/-- Where no instruction can be carried out, calls change the limit only. -/
theorem Calls.eq_withLimit {m m' : Machine} {tr : List Occurrence} {es : List Sink.Event}
    (calls : Calls m tr es m') (still : m.state = .running → ∀ i, m.next ≠ .ok i) :
    m' = m.withLimit m'.limit := by
  refine calls.keeps (P := fun _ m' => m' = m.withLimit m'.limit) rfl ?_ ?_
  · intro _ m' l same
    rw [same]
    rfl
  · intro _ m' i state _ next same
    rw [same] at state next
    exact absurd next (still state i)

/-- The program counter of a reachable machine lies in memory or just behind it. It comes behind it
only past an instruction that ends in the last cell, and then every turn and every run fails and no
call changes anything but the limit. An instruction that sets it sets it to an address, and a halted
machine stands on a halting instruction. -/
theorem counter_stays_in_range {m : Machine} (reachable : Reachable m) :
    m.pc ≤ 256 ∧ (∀ k ≤ 3, m.pc + k ≤ Text.wordMax) ∧
    (∀ {σ : Type} [Sink σ] (filter : Log.Filter) (out : σ), m.pc ≠ 256 →
      ((m.step filter out).machine.pc = 256 → m.PassesEnd (m.step filter out).machine) ∧
      ∀ o, m.run? filter out = some o → o.machine.pc = 256 →
        ∃ n m' out', steps? filter n m out = some (m', out') ∧ m'.PassesEnd o.machine) ∧
    (m.pc = 256 → ∀ tr es m', Calls m tr es m' → m' = m.withLimit m'.limit ∧
      ∀ {σ : Type} [Sink σ] (filter : Log.Filter) (out : σ),
        (m'.step filter out).result = .error m'.offEndFault ∧
        ∃ o, m'.run? filter out = some o ∧ o.result = .error m'.offEndFault) ∧
    (∀ {σ : Type} [Sink σ] (filter : Log.Filter) (out : σ) (i : Instr) (s : State),
      m.state = .running → m.Holds i → m.jumps i = true → (m.step filter out).result = .ok s →
        (m.step filter out).machine.pc ≤ 255) ∧
    (m.state = .halted → m.pc ≤ 255 ∧ m.memory.read m.pc = .ok Opcode.hlt.byte) := by
  have halted (h : m.state = .halted) :
      m.pc ≤ 255 ∧ m.memory.read m.pc = .ok Opcode.hlt.byte := by
    have byte := reachable.read_of_halted h
    have inside : m.cell? 0 = some _ := Memory.read_eq_ok_iff.1 byte
    have lt := lt_of_cell? inside
    exact ⟨by omega, byte⟩
  refine ⟨reachable.pc_le, fun k hk => ?_, fun filter out before => ⟨?_, fun o run pc => ?_⟩,
    fun pc tr es m' calls => ?_, fun filter out i s running holds jumps ok => ?_, halted⟩
  · have le := reachable.pc_le
    unfold Text.wordMax
    omega
  · exact fun pc => passesEnd_of_step pc before
  · obtain ⟨n, m', out', turns, -, rfl, -⟩ := ending_run run
    exact passesEnd_of_steps? turns pc before
  · have still : m.state = .running → ∀ i, m.next ≠ .ok i := fun _ i next =>
      not_holds_of_pc_eq pc i (next_eq_ok_iff.1 next).1
    have same := calls.eq_withLimit still
    have running : m'.state = .running := by
      rw [same]
      cases state : m.state with
      | running => exact state
      | halted =>
        have low := (halted state).1
        omega
    have there : m'.pc = 256 := by rw [same]; exact pc
    refine ⟨same, fun filter out => ?_⟩
    have error := step_of_pc_eq filter out running there
    exact ⟨error, run?_of_error error⟩
  · obtain ⟨j, -, next, machine, -⟩ := step_ok running ok
    obtain rfl := holds.unique (next_eq_ok_iff.1 next).1
    rw [machine]
    exact pc_after_of_jumps jumps

def endsInPush : List UInt8 :=
  [Opcode.ldi.byte, 0, 254, Opcode.jmp.byte, 0] ++ List.replicate 249 0 ++ [Opcode.push.byte, 0]

def atPush : Machine :=
  let m := ((loaded endsInPush).step .silent ({} : Buffer)).machine
  (m.step .silent ({} : Buffer)).machine

def pastPush : Machine := (atPush.step .silent ({} : Buffer)).machine

theorem atPush_stays_in_range :
    Reachable atPush ∧ atPush.pc = 254 ∧ atPush.PassesEnd pastPush ∧
      Reachable pastPush ∧ pastPush.pc = 256 ∧
      (pastPush.step .silent ({} : Buffer)).result = .error (.memoryOutOfRange 256) ∧
      ((pastPush.withLimit (some 3)).step .silent ({} : Buffer)).result =
        .error (.stepLimitExceeded 3) := by
  have load : withProgram endsInPush = .ok (loaded endsInPush) :=
    withProgram_eq_ok_iff.2 ⟨by decide +kernel, rfl⟩
  have one := (Calls.refl : Calls (loaded endsInPush) [] [] _).step .silent ({} : Buffer)
  have two := one.step .silent ({} : Buffer)
  have reachable : Reachable atPush := ⟨_, _, _, .inr ⟨_, load⟩, two⟩
  have next : Reachable pastPush := ⟨_, _, _, .inr ⟨_, load⟩, two.step .silent ({} : Buffer)⟩
  obtain ⟨before, pc, missing, limit⟩ : atPush.pc = 254 ∧ pastPush.pc = 256 ∧
      pastPush.offEndFault = .memoryOutOfRange 256 ∧
      (pastPush.withLimit (some 3)).offEndFault = .stepLimitExceeded 3 := by
    decide +kernel
  obtain ⟨-, -, passes, -⟩ := counter_stays_in_range reachable
  obtain ⟨-, -, -, stays, -⟩ := counter_stays_in_range next
  refine ⟨reachable, before, ?_, next, pc, ?_, ?_⟩
  · unfold pastPush at pc ⊢
    exact (passes .silent ({} : Buffer) (by omega)).1 pc
  · rw [← missing]
    exact ((stays pc _ _ pastPush .refl).2 .silent ({} : Buffer)).1
  · rw [← limit]
    exact ((stays pc _ _ _ (.limit (some 3) .refl)).2 .silent ({} : Buffer)).1

end ByteCpu.Machine
