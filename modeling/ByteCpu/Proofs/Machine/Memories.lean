import ByteCpu.Proofs.Machine.Instr
import Mathlib.Data.List.Basic
import Mathlib.Data.List.Induction
import Mathlib.Logic.Function.Basic

/-!
Memories under names, with loads, writes, reads and clones in any order. The main statement is that
a memory holds what the edits in its own past have put in its cells last, that an operation is
refused just for leaving the cells and then changes nothing, and that a memory and its clone go on
apart.
-/

set_option autoImplicit false

namespace ByteCpu

namespace Memory

theorem load_eq_error_iff {m : Memory} {program : List UInt8} {f : Fault} :
    m.load program = .error f ↔ 256 < program.length ∧ f = .memoryOutOfRange 256 := by
  unfold load
  split
  next fits => simp [Nat.not_lt.2 fits]
  next long => simp [Nat.lt_of_not_le long, eq_comm]

theorem write_eq_error_iff {m : Memory} {a : Nat} {v : UInt8} {f : Fault} :
    m.write a v = .error f ↔ 256 ≤ a ∧ f = .memoryOutOfRange a := by
  unfold write
  split
  next inside => simp [Nat.not_le.2 inside]
  next beyond => simp [Nat.le_of_not_lt beyond, eq_comm]

theorem read_eq_error_iff {m : Memory} {a : Nat} {f : Fault} :
    m.read a = .error f ↔ 256 ≤ a ∧ f = .memoryOutOfRange a := by
  unfold read
  split
  next inside => simp [Nat.not_le.2 inside]
  next beyond => simp [Nat.le_of_not_lt beyond, eq_comm]

theorem read_zeroed_eq_ok_iff {a : Nat} {v : UInt8} :
    zeroed.read a = .ok v ↔ a < 256 ∧ v = 0 := by
  by_cases inside : a < 256
  · simp [read, zeroed, inside, eq_comm]
  · simp [read, inside]

theorem length_le_of_load {m m' : Memory} {program : List UInt8} (h : m.load program = .ok m') :
    program.length ≤ 256 := by
  by_contra long
  simp [load, long] at h

theorem lt_of_write {m m' : Memory} {a : Nat} {v : UInt8} (h : m.write a v = .ok m') :
    a < 256 := by
  by_contra beyond
  simp [write, beyond] at h

theorem read_loaded_eq_ok_iff {m m' : Memory} {program : List UInt8}
    (h : m.load program = .ok m') {a : Nat} {v : UInt8} :
    m'.read a = .ok v ↔ program[a]? = some v ∨ program[a]? = none ∧ m.read a = .ok v := by
  have fits := length_le_of_load h
  obtain rfl : ⟨Vector.ofFn fun i => (program[i.val]?).getD m.cells[i]⟩ = m' := by
    simpa [load, fits] using h
  by_cases inside : a < 256
  · cases covered : program[a]? with
    | none => simp [read, inside, covered]
    | some b => simp [read, inside, covered]
  · have past : program[a]? = none := List.getElem?_eq_none (by omega)
    simp [read, inside, past]

theorem read_written_eq_ok_iff {m m' : Memory} {b : Nat} {w : UInt8} (h : m.write b w = .ok m')
    {a : Nat} {v : UInt8} :
    m'.read a = .ok v ↔ a = b ∧ v = w ∨ a ≠ b ∧ m.read a = .ok v := by
  have inside := lt_of_write h
  obtain rfl : ⟨m.cells.set b w⟩ = m' := by simpa [write, inside] using h
  by_cases here : a = b
  · subst here
    simp [read, inside, eq_comm]
  · simp [read, here, Ne.symm here]

end Memory

namespace Memories

inductive Edit where
  | load (program : List UInt8)
  | write (address : Nat) (v : UInt8)
  deriving DecidableEq, Repr

namespace Edit

def run (m : Memory) : Edit → Except Fault Memory
  | load program => m.load program
  | write address v => m.write address v

def keep (m : Memory) (e : Edit) : Memory :=
  match e.run m with
  | .ok m' => m'
  | .error _ => m

/-- The edit succeeds and puts the byte in the cell. A load covers as many cells as the program has
bytes. -/
def Puts (a : Nat) (v : UInt8) : Edit → Prop
  | load program => program.length ≤ 256 ∧ program[a]? = some v
  | write b w => b < 256 ∧ a = b ∧ v = w

theorem Puts.lt {e : Edit} {a : Nat} {v : UInt8} (h : e.Puts a v) : a < 256 := by
  cases e with
  | load program =>
    obtain ⟨fits, covered⟩ := h
    exact Nat.lt_of_lt_of_le (List.getElem?_eq_some_iff.1 covered).1 fits
  | write b w =>
    obtain ⟨inside, rfl, -⟩ := h
    exact inside

theorem read_keep_eq_ok_iff {m : Memory} {e : Edit} {a : Nat} {v : UInt8} :
    (e.keep m).read a = .ok v ↔ e.Puts a v ∨ (∀ w, ¬e.Puts a w) ∧ m.read a = .ok v := by
  cases e with
  | load program =>
    cases loaded : m.load program with
    | ok m' =>
      have fits := Memory.length_le_of_load loaded
      simp only [keep, run, loaded, Puts, fits, true_and]
      rw [Memory.read_loaded_eq_ok_iff loaded, Option.eq_none_iff_forall_ne_some]
    | error f =>
      have long := (Memory.load_eq_error_iff.1 loaded).1
      simp [keep, run, loaded, Puts, Nat.not_le.2 long]
  | write b w =>
    cases written : m.write b w with
    | ok m' =>
      have inside := Memory.lt_of_write written
      simp only [keep, run, written, Puts, inside, true_and]
      rw [Memory.read_written_eq_ok_iff written]
      simp
    | error f =>
      have beyond := (Memory.write_eq_error_iff.1 written).1
      simp [keep, run, written, Puts, Nat.not_lt.2 beyond]

end Edit

/-- The byte that a cell has which was zero before the edits: the one put in it last. -/
inductive LastPut (a : Nat) : List Edit → UInt8 → Prop
  | put {before later : List Edit} {e : Edit} {v : UInt8} (puts : e.Puts a v)
      (last : ∀ e' ∈ later, ∀ w, ¬e'.Puts a w) : LastPut a (before ++ e :: later) v
  | never {es : List Edit} (none : ∀ e ∈ es, ∀ w, ¬e.Puts a w) : LastPut a es 0

theorem lastPut_nil_iff {a : Nat} {v : UInt8} : LastPut a [] v ↔ v = 0 := by
  constructor
  · intro h
    generalize empty : ([] : List Edit) = es at h
    cases h with
    | put => simp at empty
    | never => rfl
  · rintro rfl
    exact .never (by simp)

theorem lastPut_concat_iff {a : Nat} {es : List Edit} {e : Edit} {v : UInt8} :
    LastPut a (es ++ [e]) v ↔ e.Puts a v ∨ (∀ w, ¬e.Puts a w) ∧ LastPut a es v := by
  constructor
  · intro h
    generalize whole : es ++ [e] = all at h
    cases h with
    | @put before later e' v puts last =>
      obtain rfl | ⟨later, latest, rfl⟩ := List.eq_nil_or_concat later
      · obtain ⟨-, same⟩ := List.append_inj' whole rfl
        obtain rfl := List.singleton_inj.1 same
        exact .inl puts
      · rw [List.concat_eq_append, ← List.cons_append, ← List.append_assoc] at whole
        obtain ⟨rfl, same⟩ := List.append_inj' whole rfl
        obtain rfl := List.singleton_inj.1 same
        exact .inr ⟨last _ (by simp), .put puts fun e' h => last e' (by simp [h])⟩
    | never none =>
      subst whole
      exact .inr ⟨none e (by simp), .never fun e' h => none e' (by simp [h])⟩
  · rintro (puts | ⟨quiet, earlier⟩)
    · exact .put puts (by simp)
    · cases earlier with
      | @put before later e' v puts last =>
        rw [List.append_assoc, List.cons_append]
        refine .put puts fun e'' h => ?_
        obtain h | h := List.mem_append.1 h
        · exact last e'' h
        · exact List.mem_singleton.1 h ▸ quiet
      | never none =>
        refine .never fun e' h => ?_
        obtain h | h := List.mem_append.1 h
        · exact none e' h
        · exact List.mem_singleton.1 h ▸ quiet

theorem read_foldl_keep_eq_ok_iff {es : List Edit} {a : Nat} {v : UInt8} :
    (es.foldl Edit.keep .zeroed).read a = .ok v ↔ a < 256 ∧ LastPut a es v := by
  induction es using List.reverseRecOn with
  | nil => rw [List.foldl_nil, Memory.read_zeroed_eq_ok_iff, lastPut_nil_iff]
  | append_singleton es e ih =>
    rw [List.foldl_concat, Edit.read_keep_eq_ok_iff, ih, lastPut_concat_iff]
    constructor
    · rintro (puts | ⟨quiet, inside, earlier⟩)
      · exact ⟨puts.lt, .inl puts⟩
      · exact ⟨inside, .inr ⟨quiet, earlier⟩⟩
    · rintro ⟨inside, puts | ⟨quiet, earlier⟩⟩
      · exact .inl puts
      · exact .inr ⟨quiet, inside, earlier⟩

/-- What can be done where memories have names. A clone takes the place of the memory that had its
name. -/
inductive Operation (Name : Type) where
  | edit (k : Name) (e : Edit)
  | read (k : Name) (address : Nat)
  | clone (source copy : Name)
  deriving DecidableEq, Repr

inductive Answer where
  | done
  | byte (v : UInt8)
  deriving DecidableEq, Repr

abbrev Family (Name : Type) := Name → Memory

def Family.zeroed {Name : Type} : Family Name := fun _ => .zeroed

/-- What is done to memories before a fault stays done. -/
abbrev Access (Name α : Type) := EStateM Fault (Family Name) α

section
variable {Name : Type} [DecidableEq Name]

def perform : Operation Name → Access Name Answer
  | .edit k e => do
    let m ← MonadExcept.ofExcept (e.run ((← get) k))
    modify fun s => Function.update s k m
    return .done
  | .read k a => do return .byte (← MonadExcept.ofExcept (((← get) k).read a))
  | .clone source copy => do
    modify fun s => Function.update s copy (s source)
    return .done

def result (s : Family Name) (o : Operation Name) : Except Fault Answer :=
  match perform o s with
  | .ok answer _ => .ok answer
  | .error f _ => .error f

def after (s : Family Name) (o : Operation Name) : Family Name :=
  match perform o s with
  | .ok _ s' | .error _ s' => s'

def afterAll (s : Family Name) (os : List (Operation Name)) : Family Name := os.foldl after s

/-- An operation that leaves the cells, and the fault that names where. -/
inductive Refused : Operation Name → Fault → Prop
  | load (k : Name) {program : List UInt8} (long : 256 < program.length) :
      Refused (.edit k (.load program)) (.memoryOutOfRange 256)
  | write (k : Name) {a : Nat} (v : UInt8) (beyond : 256 ≤ a) :
      Refused (.edit k (.write a v)) (.memoryOutOfRange a)
  | read (k : Name) {a : Nat} (beyond : 256 ≤ a) :
      Refused (.read k a) (.memoryOutOfRange a)

def Operation.editOf? (k : Name) : Operation Name → Option Edit
  | edit q e => if q = k then some e else none
  | read .. | clone .. => none

def edits (os : List (Operation Name)) (k : Name) : List Edit := os.filterMap (·.editOf? k)

/-- The edits that have made a memory what it is, by the operations with the latest first. What
becomes of a memory after it was cloned has no part in its clone. -/
def traced : List (Operation Name) → Name → List Edit
  | [], _ => []
  | .edit q e :: before, k => if q = k then traced before k ++ [e] else traced before k
  | .read .. :: before, k => traced before k
  | .clone source copy :: before, k => traced before (if copy = k then source else k)

def past (os : List (Operation Name)) (k : Name) : List Edit := traced os.reverse k

theorem perform_edit (s : Family Name) (k : Name) (e : Edit) :
    perform (.edit k e) s =
      match e.run (s k) with
      | .ok m => .ok .done (Function.update s k m)
      | .error f => .error f s := by
  change (MonadExcept.ofExcept (e.run (s k)) >>= fun m =>
    (do modify fun s => Function.update s k m; return Answer.done : Access Name Answer)) s = _
  cases e.run (s k) <;> rfl

theorem perform_read (s : Family Name) (k : Name) (a : Nat) :
    perform (.read k a) s =
      match (s k).read a with
      | .ok v => .ok (.byte v) s
      | .error f => .error f s := by
  change (MonadExcept.ofExcept ((s k).read a) >>= fun v =>
    (pure (Answer.byte v) : Access Name Answer)) s = _
  cases (s k).read a <;> rfl

theorem after_edit (s : Family Name) (k : Name) (e : Edit) :
    after s (.edit k e) = Function.update s k (e.keep (s k)) := by
  rw [after, perform_edit, Edit.keep]
  cases e.run (s k) with
  | ok m => rfl
  | error f => exact (Function.update_eq_self k s).symm

theorem after_read (s : Family Name) (k : Name) (a : Nat) : after s (.read k a) = s := by
  rw [after, perform_read]
  cases (s k).read a <;> rfl

theorem after_clone (s : Family Name) (source copy : Name) :
    after s (.clone source copy) = Function.update s copy (s source) := rfl

theorem result_edit_eq_error_iff {s : Family Name} {k : Name} {e : Edit} {f : Fault} :
    result s (.edit k e) = .error f ↔ e.run (s k) = .error f := by
  rw [result, perform_edit]
  cases e.run (s k) <;> simp

theorem result_read (s : Family Name) (k : Name) (a : Nat) :
    result s (.read k a) = ((s k).read a).map .byte := by
  rw [result, perform_read]
  cases (s k).read a <;> rfl

theorem result_read_eq_ok_iff {s : Family Name} {k : Name} {a : Nat} {v : UInt8} :
    result s (.read k a) = .ok (.byte v) ↔ (s k).read a = .ok v := by
  rw [result_read]
  cases (s k).read a <;> simp [Except.map]

theorem result_eq_error_iff {s : Family Name} {o : Operation Name} {f : Fault} :
    result s o = .error f ↔ Refused o f := by
  cases o with
  | edit k e =>
    rw [result_edit_eq_error_iff]
    cases e with
    | load program =>
      rw [Edit.run, Memory.load_eq_error_iff]
      constructor
      · rintro ⟨long, rfl⟩
        exact .load k long
      · rintro ⟨⟩
        next long => exact ⟨long, rfl⟩
    | write a v =>
      rw [Edit.run, Memory.write_eq_error_iff]
      constructor
      · rintro ⟨beyond, rfl⟩
        exact .write k v beyond
      · rintro ⟨⟩
        next beyond => exact ⟨beyond, rfl⟩
  | read k a =>
    have failed : result s (.read k a) = .error f ↔ (s k).read a = .error f := by
      rw [result_read]
      cases (s k).read a <;> simp [Except.map]
    rw [failed, Memory.read_eq_error_iff]
    constructor
    · rintro ⟨beyond, rfl⟩
      exact .read k beyond
    · rintro ⟨⟩
      next beyond => exact ⟨beyond, rfl⟩
  | clone source copy => exact iff_of_false nofun nofun

theorem after_of_error {s : Family Name} {o : Operation Name} {f : Fault}
    (h : result s o = .error f) : after s o = s := by
  cases o with
  | edit k e =>
    have failed := result_edit_eq_error_iff.1 h
    rw [after, perform_edit, failed]
  | read k a => exact after_read s k a
  | clone source copy => cases h

theorem afterAll_concat (s : Family Name) (os : List (Operation Name)) (o : Operation Name) :
    afterAll s (os ++ [o]) = after (afterAll s os) o := List.foldl_concat _ _ _ _

theorem past_concat (os : List (Operation Name)) (o : Operation Name) (k : Name) :
    past (os ++ [o]) k = traced (o :: os.reverse) k := by
  rw [past, List.reverse_concat]

theorem afterAll_zeroed (os : List (Operation Name)) (k : Name) :
    afterAll .zeroed os k = (past os k).foldl Edit.keep .zeroed := by
  -- From the latest operation back, for every name: a clone asks for the past of another one.
  induction os using List.reverseRecOn generalizing k with
  | nil => rfl
  | append_singleton os o ih =>
    rw [afterAll_concat, past_concat]
    cases o with
    | edit q e =>
      rw [after_edit, traced]
      by_cases here : q = k
      · subst here
        rw [if_pos rfl, List.foldl_concat, Function.update_self, ih, past]
      · rw [if_neg here, Function.update_of_ne (Ne.symm here), ih, past]
    | read q a => rw [after_read, traced, ih, past]
    | clone source copy =>
      rw [after_clone, traced]
      by_cases here : copy = k
      · subst here
        rw [if_pos rfl, Function.update_self, ih, past]
      · rw [if_neg here, Function.update_of_ne (Ne.symm here), ih, past]

theorem afterAll_of_no_clone {s : Family Name} {os : List (Operation Name)} {k : Name}
    (stays : ∀ j, .clone j k ∉ os) : afterAll s os k = (edits os k).foldl Edit.keep (s k) := by
  induction os using List.reverseRecOn with
  | nil => rfl
  | append_singleton os o ih =>
    have before := ih fun j h => stays j (List.mem_append_left _ h)
    rw [afterAll_concat, edits, List.filterMap_append, List.foldl_append, ← edits, ← before]
    cases o with
    | edit q e =>
      rw [after_edit]
      by_cases here : q = k
      · subst here
        simp [Operation.editOf?]
      · simp [Operation.editOf?, here, Ne.symm here]
    | read q a => simp [after_read, Operation.editOf?]
    | clone source copy =>
      have other : copy ≠ k := by
        rintro rfl
        exact stays source (by simp)
      simp [after_clone, Operation.editOf?, Ne.symm other]

theorem afterAll_clone {s : Family Name} {source copy k : Name} {later : List (Operation Name)}
    (which : k = source ∨ k = copy) (stays : ∀ j, .clone j k ∉ later) :
    afterAll s (.clone source copy :: later) k =
      (edits later k).foldl Edit.keep (s source) := by
  have same : after s (.clone source copy) k = s source := by
    rw [after_clone]
    obtain rfl | rfl := which
    · by_cases self : k = copy
      · rw [← self, Function.update_self]
      · rw [Function.update_of_ne self]
    · rw [Function.update_self]
  rw [afterAll, List.foldl_cons, ← afterAll, afterAll_of_no_clone stays, same]

/-- After any operations on memories that were zeroed, each has 256 cells, and a cell reads as the
byte that was put in it last in the memory's past, or as zero. An operation fails just for leaving
the cells, with the fault that names where, and then changes nothing. Whatever is done after a
clone was taken, the memory and its clone each show their own edits only. -/
theorem cells_hold_what_was_put_last (os : List (Operation Name)) :
    (∀ k, (afterAll .zeroed os k).toList.length = 256) ∧
    (∀ k a v, result (afterAll .zeroed os) (.read k a) = .ok (.byte v) ↔
      a < 256 ∧ LastPut a (past os k) v) ∧
    (∀ o f, result (afterAll .zeroed os) o = .error f ↔ Refused o f) ∧
    (∀ o f, result (afterAll .zeroed os) o = .error f →
      after (afterAll .zeroed os) o = afterAll .zeroed os) ∧
    ∀ source copy k later, k = source ∨ k = copy → (∀ j, .clone j k ∉ later) →
      afterAll .zeroed (os ++ .clone source copy :: later) k =
        (edits later k).foldl Edit.keep (afterAll .zeroed os source) := by
  refine ⟨fun k => Memory.length_toList _, fun k a v => ?_, fun _ _ => result_eq_error_iff,
    fun _ _ => after_of_error, fun source copy k later which stays => ?_⟩
  · rw [result_read_eq_ok_iff, afterAll_zeroed, read_foldl_keep_eq_ok_iff]
  · rw [afterAll, List.foldl_append]
    exact afterAll_clone which stays

end

def oversized : List UInt8 := List.replicate 257 5

@[simp] theorem length_oversized : oversized.length = 257 := List.length_replicate

def overlappingLoads : List (Operation Nat) :=
  [.edit 0 (.write 1 7), .edit 0 (.write 2 9), .edit 0 (.load [1, 2]), .edit 0 (.load oversized),
    .clone 0 1, .edit 1 (.load [3]), .edit 0 (.write 2 8), .edit 0 (.write 256 6)]

theorem overlappingLoads_hold_what_was_put_last :
    let s := afterAll .zeroed overlappingLoads
    (s 1).toList.length = 256 ∧
    result s (.read 1 0) = .ok (.byte 3) ∧
    result s (.read 1 1) = .ok (.byte 2) ∧
    result s (.read 1 2) = .ok (.byte 9) ∧
    result s (.read 1 255) = .ok (.byte 0) ∧
    result s (.edit 0 (.load oversized)) = .error (.memoryOutOfRange 256) ∧
    after s (.edit 0 (.load oversized)) = s ∧
    afterAll .zeroed (overlappingLoads ++
      .clone 1 0 :: [.edit 1 (.write 3 5), .edit 0 (.write 3 4)]) 0 =
        Edit.keep (s 1) (.write 3 4) := by
  intro s
  obtain ⟨size, reads, fails, keeps, apart⟩ := cells_hold_what_was_put_last overlappingLoads
  have edited : past overlappingLoads 1 =
      [.write 1 7, .write 2 9, .load [1, 2], .load oversized, .load [3]] := rfl
  have failed := (fails (.edit 0 (.load oversized)) _).2 (.load 0 (by simp))
  refine ⟨size 1, (reads 1 0 3).2 ⟨by decide, ?_⟩, (reads 1 1 2).2 ⟨by decide, ?_⟩,
    (reads 1 2 9).2 ⟨by decide, ?_⟩, (reads 1 255 0).2 ⟨by decide, ?_⟩, failed, keeps _ _ failed,
    apart 1 0 0 _ (.inr rfl) (by simp)⟩
  all_goals rw [edited]
  · exact @LastPut.put 0 [.write 1 7, .write 2 9, .load [1, 2], .load oversized] []
      (.load [3]) 3 ⟨by decide, rfl⟩ (by simp)
  · exact @LastPut.put 1 [.write 1 7, .write 2 9] [.load oversized, .load [3]]
      (.load [1, 2]) 2 ⟨by decide, rfl⟩ (by simp [Edit.Puts])
  · exact @LastPut.put 2 [.write 1 7] [.load [1, 2], .load oversized, .load [3]]
      (.write 2 9) 9 ⟨by decide, rfl, rfl⟩ (by simp [Edit.Puts])
  · exact .never (by simp [Edit.Puts])

end Memories
end ByteCpu
