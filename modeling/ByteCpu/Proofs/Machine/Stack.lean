import ByteCpu.Proofs.Machine.Calls

/-!
The stack in memory against a list. The main statement is that, as long as nothing but the stack
moves the stack pointer and no more than 256 bytes are on it, each byte taken is the latest one put
there and not yet taken, so that a return continues behind its call.
-/

set_option autoImplicit false

namespace ByteCpu

namespace Instr

def pushes : Instr → Bool
  | push _ | call _ => true
  | _ => false

def pops : Instr → Bool
  | pop _ | ret => true
  | _ => false

theorem pops_eq_false_of_pushes {i : Instr} (h : i.pushes = true) : i.pops = false := by
  cases i with
  | push | call => rfl
  | _ => cases h

theorem pushes_eq_false_of_pops {i : Instr} (h : i.pops = true) : i.pushes = false := by
  cases i with
  | pop | ret => rfl
  | _ => cases h

def target? : Instr → Option Reg
  | ldi r _ | pop r => some r
  | alu op a _ => if op = .cmp then none else some a
  | _ => none

end Instr

namespace Occurrence

def pushed? (e : Occurrence) : Option UInt8 :=
  match e.instr with
  | .push r => some (if r = .sp then e.before.registers.sp - 1 else e.before.registers.get r)
  | .call _ => some (UInt8.ofNat (e.before.pc + 2))
  | _ => none

/-- The byte comes from the stack, into a register or as the address to go on at. -/
def Takes (e : Occurrence) (v : UInt8) : Prop :=
  match e.instr with
  | .pop r => e.after.registers.get r = v
  | .ret => e.after.pc = v.toNat
  | _ => False

/-- The stack pointer changes only along with the stack. -/
def KeepsToStack (e : Occurrence) : Prop :=
  e.instr ≠ .pop .sp ∧
    (e.instr.pushes = false → e.instr.pops = false → e.after.registers.sp = e.before.registers.sp)

end Occurrence

def depth (tr : List Occurrence) : Int :=
  (tr.countP (·.instr.pushes) : Int) - tr.countP (·.instr.pops)

/-- The pushes and calls whose bytes have not been taken, latest first. -/
def pending (tr : List Occurrence) : List Occurrence :=
  tr.foldl (fun stack e =>
    if e.instr.pushes then e :: stack else if e.instr.pops then stack.tail else stack) []

theorem pending_concat (tr : List Occurrence) (e : Occurrence) :
    pending (tr ++ [e]) =
      if e.instr.pushes then e :: pending tr else if e.instr.pops then (pending tr).tail
      else pending tr := by
  simp [pending]

theorem depth_concat (tr : List Occurrence) (e : Occurrence) :
    depth (tr ++ [e]) =
      depth tr + (if e.instr.pushes then 1 else 0) - (if e.instr.pops then 1 else 0) := by
  simp only [depth, List.countP_append, List.countP_singleton]
  split <;> split <;> omega

namespace Machine

theorem memory_after {m : Machine} {i : Instr} (h : i.pushes = false) :
    (m.after i).memory = m.memory := by
  cases i with
  | push | call => cases h
  | alu op a b => cases op <;> rfl
  | hlt | ret | pop | prn | jmp | jeq | jne | ldi => rfl

theorem after_of_pushes {m : Machine} {i : Instr} (h : i.pushes = true) :
    ∃ v, Occurrence.pushed? ⟨m, i, m.after i⟩ = some v ∧
      (m.after i).memory = m.memory.set (m.registers.sp - 1) v ∧
      (m.after i).registers.sp = m.registers.sp - 1 := by
  cases i with
  | push r => exact ⟨_, rfl, rfl, Registers.sp_setSp _ _⟩
  | call r => exact ⟨_, rfl, rfl, Registers.sp_setSp _ _⟩
  | hlt | ret | pop | prn | jmp | jeq | jne | ldi | alu => cases h

theorem after_of_pops {m : Machine} {i : Instr} (h : i.pops = true) (other : i ≠ .pop .sp) :
    (m.after i).registers.sp = m.registers.sp + 1 ∧
      Occurrence.Takes ⟨m, i, m.after i⟩ (m.memory.get m.registers.sp) := by
  cases i with
  | pop r =>
    have hr : r ≠ .sp := fun e => other (by rw [e])
    simp only [after, if_neg hr, Occurrence.Takes]
    refine ⟨Registers.sp_setSp _ _, ?_⟩
    rw [Registers.get_setSp, if_neg hr, Registers.get_set_self]
  | ret => exact ⟨Registers.sp_setSp _ _, rfl⟩
  | hlt | push | call | prn | jmp | jeq | jne | ldi | alu => cases h

theorem pc_of_next_call {m : Machine} {r : Reg} (next : m.next = .ok (.call r)) :
    m.pc + 2 < 256 := by
  have fits : m.pc < 254 := by simpa [refusal?] using (next_eq_ok_iff.1 next).2
  omega

theorem Calls.keepsToStack {m₀ m : Machine} {tr : List Occurrence} {es : List Sink.Event}
    (calls : Calls m₀ tr es m)
    (h : ∀ e ∈ tr, e.instr.target? ≠ some .sp) : ∀ e ∈ tr, e.KeepsToStack := by
  intro e he
  obtain ⟨p, q, rfl⟩ := List.append_of_mem he
  have target := h e he
  obtain ⟨-, -, -, -, after⟩ := calls.upTo
  refine ⟨fun same => target (by rw [same]; rfl), fun pushes pops => ?_⟩
  rw [after]
  cases hi : e.instr with
  | push | call =>
    rw [hi] at pushes
    cases pushes
  | pop | ret =>
    rw [hi] at pops
    cases pops
  | hlt | prn | jmp | jeq | jne => rfl
  | ldi r v =>
    have hr : r ≠ .sp := fun same => target (by rw [hi, same]; rfl)
    exact (Registers.sp_set _ _ _).trans (if_neg hr)
  | alu op a b =>
    cases op with
    | cmp => rfl
    | add | sub | mul | div =>
      have ha : a ≠ .sp := fun same => target (by rw [hi, same]; rfl)
      exact (Registers.sp_set _ _ _).trans (if_neg ha)

end Machine

/-- The bytes of pushes and calls stand in memory from an address on, each just below where the
stack pointer was. -/
def Holding (mem : Memory) : UInt8 → List Occurrence → Prop
  | _, [] => True
  | a, e :: es =>
    e.pushed? = some (mem.get a) ∧ e.before.registers.sp = a + 1 ∧ Holding mem (a + 1) es

theorem Holding.set_below {mem : Memory} {a : UInt8} {es : List Occurrence} {k : Nat}
    (h : Holding mem a es) (room : es.length + k < 256) (v : UInt8) :
    Holding (mem.set (a - 1 - UInt8.ofNat k) v) a es := by
  induction es generalizing a k with
  | nil => trivial
  | cons e es ih =>
    obtain ⟨byte, place, rest⟩ := h
    have hk : k < 255 := by
      simp only [List.length_cons] at room
      omega
    have apart : a - 1 - UInt8.ofNat k ≠ a := by
      intro he
      have hn := congrArg UInt8.toNat he
      have ha := a.toNat_lt
      simp only [UInt8.toNat_sub, UInt8.toNat_ofNat', UInt8.reduceToNat] at hn
      omega
    have further : a + 1 - 1 - UInt8.ofNat (k + 1) = a - 1 - UInt8.ofNat k := by
      rw [UInt8.ofNat_add]
      grind
    refine ⟨?_, place, ?_⟩
    · rw [Memory.get_set_of_ne mem v apart, byte]
    · rw [← further]
      exact ih rest (by simp only [List.length_cons] at room; omega)

structure Stacked (s : UInt8) (tr : List Occurrence) (m : Machine) : Prop where
  sp : m.registers.sp + UInt8.ofNat (pending tr).length = s
  length : depth tr = (pending tr).length
  holding : Holding m.memory m.registers.sp (pending tr)
  returns : ∀ e ∈ pending tr, ∀ r, e.instr = .call r → e.before.pc + 2 < 256

namespace Stacked

variable {s : UInt8} {tr : List Occurrence} {m : Machine} {i : Instr}

theorem start (m : Machine) : Stacked m.registers.sp [] m where
  sp := by simp [pending]
  length := by simp [pending, depth]
  holding := by simp [pending, Holding]
  returns := by simp [pending]

theorem push (h : Stacked s tr m) (next : m.next = .ok i) (pushes : i.pushes = true)
    (most : depth (tr ++ [⟨m, i, m.after i⟩]) ≤ 256) :
    Stacked s (tr ++ [⟨m, i, m.after i⟩]) (m.after i) := by
  have pops := Instr.pops_eq_false_of_pushes pushes
  obtain ⟨v, byte, memory, sp⟩ := Machine.after_of_pushes (m := m) pushes
  have onTop : pending (tr ++ [⟨m, i, m.after i⟩]) = ⟨m, i, m.after i⟩ :: pending tr := by
    simp [pending_concat, pushes]
  have deeper : depth (tr ++ [⟨m, i, m.after i⟩]) = depth tr + 1 := by
    simp [depth_concat, pushes, pops]
  have length := h.length
  have above : m.registers.sp - 1 + 1 = m.registers.sp := UInt8.sub_add_cancel _ _
  constructor
  · rw [onTop, sp, List.length_cons, UInt8.ofNat_add, ← h.sp]
    grind
  · rw [deeper, onTop, List.length_cons]
    omega
  · rw [onTop, memory, sp]
    refine ⟨?_, above.symm, ?_⟩
    · rw [Memory.get_set_self, byte]
    · have below := h.holding.set_below (k := 0) (by omega) v
      rwa [above, ← UInt8.sub_zero (m.registers.sp - 1)]
  · rw [onTop]
    intro e he r call
    obtain rfl | he := List.mem_cons.1 he
    · exact Machine.pc_of_next_call (r := r) (by rw [next, ← call])
    · exact h.returns e he r call

theorem pending_ne_nil (h : Stacked s tr m) {e : Occurrence} (pops : e.instr.pops = true)
    (least : 0 ≤ depth (tr ++ [e])) : pending tr ≠ [] := by
  have pushes := Instr.pushes_eq_false_of_pops pops
  have length := h.length
  intro empty
  simp only [depth_concat, pops, pushes, Bool.false_eq_true, if_true, if_false] at least
  rw [empty, List.length_nil] at length
  omega

theorem pop (h : Stacked s tr m) (pops : i.pops = true) (other : i ≠ .pop .sp)
    (least : 0 ≤ depth (tr ++ [⟨m, i, m.after i⟩])) :
    Stacked s (tr ++ [⟨m, i, m.after i⟩]) (m.after i) := by
  have pushes := Instr.pushes_eq_false_of_pops pops
  obtain ⟨sp, -⟩ := Machine.after_of_pops pops other
  have offTop : pending (tr ++ [⟨m, i, m.after i⟩]) = (pending tr).tail := by
    simp [pending_concat, pushes, pops]
  have lower : depth (tr ++ [⟨m, i, m.after i⟩]) = depth tr - 1 := by
    simp [depth_concat, pushes, pops]
  obtain ⟨e, es, top⟩ := List.exists_cons_of_ne_nil (h.pending_ne_nil pops least)
  obtain ⟨sp₀, length, holding, returns⟩ := h
  rw [top] at sp₀ length holding returns offTop
  rw [List.tail_cons] at offTop
  constructor
  · rw [offTop, sp, ← sp₀, List.length_cons, UInt8.ofNat_add]
    grind
  · rw [lower, offTop, length, List.length_cons]
    omega
  · rw [offTop, Machine.memory_after pushes, sp]
    exact holding.2.2
  · rw [offTop]
    intro e' he
    exact returns e' (List.mem_cons_of_mem _ he)

theorem other (h : Stacked s tr m) (pushes : i.pushes = false) (pops : i.pops = false)
    (sp : (m.after i).registers.sp = m.registers.sp) :
    Stacked s (tr ++ [⟨m, i, m.after i⟩]) (m.after i) := by
  have same : pending (tr ++ [⟨m, i, m.after i⟩]) = pending tr := by
    simp [pending_concat, pushes, pops]
  have level : depth (tr ++ [⟨m, i, m.after i⟩]) = depth tr := by
    simp [depth_concat, pushes, pops]
  constructor
  · rw [same, sp]
    exact h.sp
  · rw [level, same]
    exact h.length
  · rw [same, sp, Machine.memory_after pushes]
    exact h.holding
  · rw [same]
    exact h.returns

theorem sp_eq (h : Stacked s tr m) : (m.registers.sp.toNat : Int) = (s.toNat - depth tr) % 256 := by
  have sp := h.sp
  subst sp
  have lt := m.registers.sp.toNat_lt
  rw [h.length, UInt8.toNat_add, UInt8.toNat_ofNat']
  omega

end Stacked

namespace Machine

theorem Calls.stacked {m₀ m : Machine} {tr : List Occurrence} {es : List Sink.Event}
    (calls : Calls m₀ tr es m) (keeps : ∀ e ∈ tr, e.KeepsToStack)
    (bounded : ∀ p, p <+: tr → 0 ≤ depth p ∧ depth p ≤ 256) : Stacked m₀.registers.sp tr m := by
  refine calls.keeps (P := fun tr m => (∀ e ∈ tr, e.KeepsToStack) →
    (∀ p, p <+: tr → 0 ≤ depth p ∧ depth p ≤ 256) → Stacked m₀.registers.sp tr m)
    ?_ (fun tr m l ih hk hb => ?_) (fun tr m i state _ next ih hk hb => ?_) keeps bounded
  · intro _ _
    exact .start m₀
  · obtain ⟨sp, length, holding, returns⟩ := ih hk hb
    exact ⟨sp, length, holding, returns⟩
  · have before := ih (fun e he => hk e (List.mem_append_left _ he))
      (fun p hp => hb p (hp.trans (List.prefix_append _ _)))
    obtain ⟨least, most⟩ := hb _ (List.prefix_refl _)
    obtain ⟨other, still⟩ := hk ⟨m, i, m.after i⟩ (by simp)
    cases pushes : i.pushes with
    | true => exact before.push next pushes most
    | false =>
      cases pops : i.pops with
      | true => exact before.pop pops other least
      | false => exact before.other pushes pops (still pushes pops)

/-- Bytes come off the stack in the order opposite to that in which they went on it, whatever is
done in between and wherever in memory they lie; a return goes on behind its call with the stack
pointer from before it. -/
theorem stack_is_last_in_first_out {m₀ m : Machine} {tr : List Occurrence} {es : List Sink.Event}
    (calls : Calls m₀ tr es m) (keeps : ∀ e ∈ tr, e.KeepsToStack)
    (bounded : ∀ p, p <+: tr → 0 ≤ depth p ∧ depth p ≤ 256) :
    (m.registers.sp.toNat : Int) = (m₀.registers.sp.toNat - depth tr) % 256 ∧
    ∀ p e q, tr = p ++ e :: q →
      (e.before.registers.sp.toNat : Int) = (m₀.registers.sp.toNat - depth p) % 256 ∧
      (e.instr.pops = true → ∃ top rest v, pending p = top :: rest ∧ top.pushed? = some v ∧
        e.Takes v ∧ ∀ r, top.instr = .call r → e.instr = .ret →
          e.after.pc = top.before.pc + 2 ∧ e.after.registers.sp = top.before.registers.sp) := by
  have stacked := calls.stacked keeps bounded
  refine ⟨stacked.sp_eq, fun p e q split => ?_⟩
  subst split
  obtain ⟨es', short, -, next, after⟩ := calls.upTo
  have before := short.stacked (fun e he => keeps e (List.mem_append_left _ he))
    (fun p' hp => bounded p' (hp.trans (List.prefix_append _ _)))
  refine ⟨before.sp_eq, fun pops => ?_⟩
  have other := (keeps e (by simp)).1
  obtain ⟨sp, takes⟩ := after_of_pops (m := e.before) pops other
  rw [← after] at sp takes
  have least := (bounded (p ++ [e]) ⟨q, by simp⟩).1
  obtain ⟨top, rest, onTop⟩ := List.exists_cons_of_ne_nil (before.pending_ne_nil pops least)
  obtain ⟨-, -, holding, returns⟩ := before
  rw [onTop] at holding returns
  obtain ⟨byte, place, -⟩ := holding
  refine ⟨top, rest, _, onTop, byte, takes, fun r call ret => ⟨?_, by rw [sp, place]⟩⟩
  have small := returns top List.mem_cons_self r call
  simp only [Occurrence.pushed?, call, Option.some.injEq] at byte
  simp only [Occurrence.Takes, ret, ← byte, UInt8.toNat_ofNat'] at takes
  omega

/-- About to push a byte to the cell at address 0, and then a return address to that at 255. -/
def pushAndCall : Machine :=
  (turns 3 (loaded [Opcode.ldi.byte, 7, 1, Opcode.ldi.byte, 0, 9, Opcode.ldi.byte, 1, 15,
    Opcode.push.byte, 0, Opcode.call.byte, 1, Opcode.pop.byte, 2, Opcode.ret.byte])).2

theorem pushAndCall_is_last_in_first_out :
    let tr := (turns 4 pushAndCall).1
    (∃ es, Calls pushAndCall tr es (turns 4 pushAndCall).2) ∧ (∀ e ∈ tr, e.KeepsToStack) ∧
      (∀ p, p <+: tr → 0 ≤ depth p ∧ depth p ≤ 256) ∧
      (turns 4 pushAndCall).2.registers.sp.toNat = 1 ∧
      ∃ p e q, tr = p ++ e :: q ∧ e.instr = .ret ∧ e.after.pc = 13 ∧ e.after.registers.sp = 0 := by
  intro tr
  obtain ⟨es, calls⟩ : ∃ es, Calls pushAndCall tr es _ := calls_turns 4 pushAndCall
  have keeps : ∀ e ∈ tr, e.KeepsToStack := calls.keepsToStack (by decide +kernel)
  have bounded : ∀ p, p <+: tr → 0 ≤ depth p ∧ depth p ≤ 256 := by
    intro p hp
    have each : ∀ k < 5, 0 ≤ depth (tr.take k) ∧ depth (tr.take k) ≤ 256 := by decide +kernel
    have short : p.length < 5 := Nat.lt_of_le_of_lt hp.length_le (by decide +kernel)
    rw [List.prefix_iff_eq_take.1 hp]
    exact each p.length short
  obtain ⟨sp, each⟩ := stack_is_last_in_first_out calls keeps bounded
  have level : depth tr = 0 := by decide +kernel
  have third : tr[2]?.map (·.instr) = some .ret := by decide +kernel
  obtain ⟨e, he, ret⟩ := Option.map_eq_some_iff.1 third
  have call : (pending (tr.take 2)).head?.map
      (fun e => (e.instr, e.before.pc, e.before.registers.sp)) = some (.call 1, 11, 0) := by
    decide +kernel
  have split : tr = tr.take 2 ++ e :: tr.drop 3 := eq_take_append_drop he
  obtain ⟨-, taken⟩ := each _ _ _ split
  obtain ⟨top, rest, v, onTop, -, -, matched⟩ := taken (by rw [ret]; rfl)
  rw [onTop] at call
  simp only [List.head?_cons, Option.map_some, Option.some.injEq, Prod.mk.injEq] at call
  obtain ⟨isCall, pc, place⟩ := call
  obtain ⟨pc', sp'⟩ := matched 1 isCall ret
  refine ⟨⟨es, calls⟩, keeps, bounded, ?_, _, e, _, split, ret, by rw [pc', pc], by rw [sp', place]⟩
  have start : pushAndCall.registers.sp.toNat = 1 := by decide +kernel
  rw [level, start] at sp
  omega

end Machine
end ByteCpu
