import ByteCpu.Proofs.Machine.Comparison
import Mathlib

/-!
The register file under operations one after another. The main statement is that it behaves as a map
from registers to bytes in which the stack pointer is one of the registers, and that an operation is
refused for the first obstacle in its way and then changes nothing.
-/

set_option autoImplicit false

namespace ByteCpu

theorem Flags.Tells.eq_compare {f : Flags} {x y : UInt8} (h : f.Tells x y) : f = compare x y := by
  have compared := tells_compare x y
  have equal := Bool.eq_iff_iff.2 (h.equal.trans compared.equal.symm)
  have less := Bool.eq_iff_iff.2 (h.less.trans compared.less.symm)
  have greater := Bool.eq_iff_iff.2 (h.greater.trans compared.greater.symm)
  obtain ⟨e, l, g⟩ := f
  rw [Flags.mk.injEq]
  exact ⟨equal, less, greater⟩

namespace AluOp

/-- The name is the mnemonic with each letter in either case. A small letter comes 32 places after
its capital. -/
def HasName (op : AluOp) (name : String) : Prop :=
  List.Forall₂ (fun c u => c = u ∨ c.toNat = u.toNat + 32) name.toList op.mnemonic.toList

instance (op : AluOp) (name : String) : Decidable (op.HasName name) :=
  inferInstanceAs (Decidable (List.Forall₂ _ _ _))

theorem toNat_toUpper (c : Char) :
    c.toUpper.toNat = if 97 ≤ c.toNat ∧ c.toNat ≤ 122 then c.toNat - 32 else c.toNat := by
  have small : ('a'.val ≤ c.val ∧ c.val ≤ 'z'.val) ↔ 97 ≤ c.toNat ∧ c.toNat ≤ 122 := by
    simp [UInt32.le_iff_toNat_le, ← Char.toNat_val]
  unfold Char.toUpper
  split
  next letter =>
    have range := small.1 letter
    have step : ('A'.val - 'a'.val).toNat = 2 ^ 32 - 32 := by decide
    have moved : (c.val + ('A'.val - 'a'.val)).toNat = c.toNat - 32 := by
      rw [UInt32.toNat_add, Char.toNat_val, step]
      omega
    rw [if_pos range]
    exact moved
  next other => rw [if_neg (mt small.2 other)]

theorem toUpper_eq_iff {c u : Char} (capital : u.isUpper = true) :
    c.toUpper = u ↔ c = u ∨ c.toNat = u.toNat + 32 := by
  have range : 65 ≤ u.toNat ∧ u.toNat ≤ 90 := by
    simpa [Char.isUpper, UInt32.le_iff_toNat_le, ← Char.toNat_val] using capital
  rw [← Char.toNat_inj, ← Char.toNat_inj, toNat_toUpper]
  split <;> omega

theorem map_toUpper_eq_iff {cs us : List Char} (capital : ∀ u ∈ us, u.isUpper = true) :
    cs.map Char.toUpper = us ↔
      List.Forall₂ (fun c u => c = u ∨ c.toNat = u.toNat + 32) cs us := by
  induction us generalizing cs with
  | nil => simp
  | cons u us ih =>
    obtain ⟨here, later⟩ := List.forall_mem_cons.1 capital
    cases cs with
    | nil => simp
    | cons c cs =>
      rw [List.map_cons, List.cons_eq_cons, List.forall₂_cons, toUpper_eq_iff here, ih later]

theorem capital_mnemonic (op : AluOp) : ∀ u ∈ op.mnemonic.toList, u.isUpper = true := by
  have all : op.mnemonic.toList.all Char.isUpper = true := by cases op <;> decide
  exact List.all_eq_true.1 all

theorem hasName_iff {op : AluOp} {name : String} :
    op.HasName name ↔ name.map Char.toUpper = op.mnemonic := by
  rw [HasName, ← map_toUpper_eq_iff op.capital_mnemonic, ← String.toList_inj, String.toList_map]

theorem ofName_of_hasName {op : AluOp} {name : String} (h : op.HasName name) :
    ofName name = .ok op := by
  rw [ofName, hasName_iff.1 h]
  cases op <;> rfl

theorem ofName_of_unnamed {name : String} (h : ∀ op : AluOp, ¬op.HasName name) :
    ofName name = .error (.unsupportedOperation name) := by
  have none : all.find? (fun op => op.mnemonic == name.map Char.toUpper) = none := by
    rw [List.find?_eq_none]
    intro op _ found
    exact h op (hasName_iff.2 (eq_of_beq found).symm)
  rw [ofName, none]

end AluOp

theorem AluOp.HasName.unique {op op' : AluOp} {name : String} (h : op.HasName name)
    (h' : op'.HasName name) : op = op' :=
  Except.ok.inj ((ofName_of_hasName h).symm.trans (ofName_of_hasName h'))

theorem Reg.ofByte_of_ge {i : UInt8} (h : 8 ≤ i.toNat) :
    Reg.ofByte i = .error (.registerOutOfRange i) := dif_neg (Nat.not_lt.2 h)

theorem Reg.byte_or_ge (i : UInt8) : (∃ r : Reg, i = r.byte) ∨ 8 ≤ i.toNat := by
  obtain less | high := Nat.lt_or_ge i.toNat 8
  · exact .inl ⟨⟨i.toNat, less⟩, by simp [Reg.byte]⟩
  · exact .inr high

theorem AluOp.lt_of_number? {op : AluOp} {x y : UInt8} {n : Nat}
    (h : op.number? x.toNat y.toNat = some n) : n < 256 := by
  have few := x.toNat_lt
  have quotient : x.toNat / y.toNat ≤ x.toNat := Nat.div_le_self _ _
  cases op <;> simp only [number?, Option.some.injEq, reduceCtorEq] at h <;> omega

theorem AluOp.applyBytes_of_ge {i : UInt8} (high : 8 ≤ i.toNat) (op : AluOp) (rs : Registers)
    (j : UInt8) : op.applyBytes rs i j = .error (.registerOutOfRange i) := by
  rw [applyBytes, Reg.ofByte_of_ge high, bind_error]

theorem AluOp.applyBytes_byte_of_ge {j : UInt8} (high : 8 ≤ j.toNat) (op : AluOp) (rs : Registers)
    (a : Reg) : op.applyBytes rs a.byte j = .error (.registerOutOfRange j) := by
  rw [applyBytes, Reg.ofByte_byte, bind_ok, Reg.ofByte_of_ge high, bind_error]

/-- The fault that goes with the first condition that is met. -/
inductive FirstOf : List (Prop × Fault) → Fault → Prop
  | here {p : Prop} {f : Fault} {rest : List (Prop × Fault)} (met : p) : FirstOf ((p, f) :: rest) f
  | later {p : Prop} {f g : Fault} {rest : List (Prop × Fault)} (unmet : ¬p)
      (first : FirstOf rest g) : FirstOf ((p, f) :: rest) g

namespace RegisterFile

inductive Operation where
  | get (i : UInt8)
  | set (i v : UInt8)
  | sp
  | setSp (v : UInt8)
  | alu (op : AluOp) (i j : UInt8)
  | named (name : String) (i j : UInt8)
  deriving DecidableEq, Repr

inductive Answer where
  | done
  | byte (v : UInt8)
  | flags (f : Flags)
  deriving DecidableEq, Repr

/-- What is done to a register file before a fault stays done. -/
abbrev Access (α : Type) := EStateM Fault Registers α

def lift {α : Type} : Except Fault α → Access α
  | .ok a => pure a
  | .error f => throw f

def operate (op : AluOp) (i j : UInt8) : Access Answer := do
  let (rs, flags) ← lift (op.applyBytes (← get) i j)
  set rs
  return flags.elim .done .flags

def perform : Operation → Access Answer
  | .get i => do return .byte (← lift ((← get).read i))
  | .set i v => do
    set (← lift ((← get).write i v))
    return .done
  | .sp => do return .byte (← get).sp
  | .setSp v => do
    modify (·.setSp v)
    return .done
  | .alu op i j => operate op i j
  | .named name i j => do operate (← lift (AluOp.ofName name)) i j

def result (rs : Registers) (o : Operation) : Except Fault Answer :=
  match perform o rs with
  | .ok a _ => .ok a
  | .error f _ => .error f

def after (rs : Registers) (o : Operation) : Registers :=
  match perform o rs with
  | .ok _ rs' | .error _ rs' => rs'

def results : Registers → List Operation → List (Except Fault Answer)
  | _, [] => []
  | rs, o :: os => result rs o :: results (after rs o) os

def afterAll (rs : Registers) (os : List Operation) : Registers := os.foldl after rs

abbrev Bank := Reg → UInt8

inductive Asks : Operation → AluOp → UInt8 → UInt8 → Prop
  | alu (op : AluOp) (i j : UInt8) : Asks (.alu op i j) op i j
  | named {op : AluOp} {name : String} (i j : UInt8) (h : op.HasName name) :
      Asks (.named name i j) op i j

/-- What can stand in the way of an operation between registers, in this order. -/
def operandObstacles (bank : Bank) (division : Prop) (i j : UInt8) : List (Prop × Fault) :=
  [(8 ≤ i.toNat, .registerOutOfRange i), (8 ≤ j.toNat, .registerOutOfRange j),
    (division ∧ ∃ b : Reg, j = b.byte ∧ bank b = 0, .divisionByZero)]

def obstacles (bank : Bank) : Operation → List (Prop × Fault)
  | .get i | .set i _ => [(8 ≤ i.toNat, .registerOutOfRange i)]
  | .sp | .setSp _ => []
  | .alu op i j => operandObstacles bank (op = .div) i j
  | .named name i j => (∀ op : AluOp, ¬op.HasName name, .unsupportedOperation name) ::
      operandObstacles bank (AluOp.div.HasName name) i j

/-- What an operation comes to, and what the registers hold after it. -/
inductive Does (bank : Bank) : Operation → Except Fault Answer → Bank → Prop
  | get (r : Reg) : Does bank (.get r.byte) (.ok (.byte (bank r))) bank
  | set (r : Reg) (v : UInt8) :
      Does bank (.set r.byte v) (.ok .done) (Function.update bank r v)
  | sp : Does bank .sp (.ok (.byte (bank .sp))) bank
  | setSp (v : UInt8) : Does bank (.setSp v) (.ok .done) (Function.update bank .sp v)
  | store {o : Operation} {op : AluOp} {a b : Reg} {v : UInt8} (asks : Asks o op a.byte b.byte)
      (number : op.number? (bank a).toNat (bank b).toNat = some v.toNat)
      (divisor : op = .div → bank b ≠ 0) :
      Does bank o (.ok .done) (Function.update bank a v)
  | compare {o : Operation} {a b : Reg} {f : Flags} (asks : Asks o .cmp a.byte b.byte)
      (tells : f.Tells (bank a) (bank b)) : Does bank o (.ok (.flags f)) bank
  | refused {o : Operation} {f : Fault} (first : FirstOf (obstacles bank o) f) :
      Does bank o (.error f) bank

inductive Course : Bank → List Operation → List (Except Fault Answer) → Bank → Prop
  | done (bank : Bank) : Course bank [] [] bank
  | next {bank bank' bank'' : Bank} {o : Operation} {os : List Operation}
      {r : Except Fault Answer} {rs : List (Except Fault Answer)} (does : Does bank o r bank')
      (later : Course bank' os rs bank'') : Course bank (o :: os) (r :: rs) bank''

theorem get_set (rs : Registers) (r : Reg) (v : UInt8) :
    (rs.set r v).get = Function.update rs.get r v := by
  funext q
  by_cases h : q = r
  · rw [h, Registers.get_set_self, Function.update_self]
  · rw [Registers.get_set_of_ne rs v (Ne.symm h), Function.update_of_ne h]

theorem perform_get (i : UInt8) (rs : Registers) :
    perform (.get i) rs =
      match rs.read i with
      | .ok v => .ok (.byte v) rs
      | .error f => .error f rs := by
  change (lift (rs.read i) >>= fun v => (pure (Answer.byte v) : Access Answer)) rs = _
  cases rs.read i <;> rfl

theorem perform_set (i v : UInt8) (rs : Registers) :
    perform (.set i v) rs =
      match rs.write i v with
      | .ok rs' => .ok .done rs'
      | .error f => .error f rs := by
  change (lift (rs.write i v) >>= fun rs' =>
    (do set rs'; return Answer.done : Access Answer)) rs = _
  cases rs.write i v <;> rfl

theorem operate_eq (op : AluOp) (i j : UInt8) (rs : Registers) :
    operate op i j rs =
      match op.applyBytes rs i j with
      | .ok (rs', flags) => .ok (flags.elim .done .flags) rs'
      | .error f => .error f rs := by
  change (lift (op.applyBytes rs i j) >>= fun p =>
    (do set p.1; return p.2.elim Answer.done Answer.flags : Access Answer)) rs = _
  cases op.applyBytes rs i j <;> rfl

theorem Asks.perform_eq {o : Operation} {op : AluOp} {i j : UInt8} (h : Asks o op i j)
    (rs : Registers) : perform o rs = operate op i j rs := by
  cases h with
  | alu => rfl
  | @named op name i j h =>
    change (lift (AluOp.ofName name) >>= fun op => operate op i j) rs = _
    rw [AluOp.ofName_of_hasName h]
    rfl

theorem perform_unnamed {name : String} (unnamed : ∀ op : AluOp, ¬op.HasName name) (i j : UInt8)
    (rs : Registers) : perform (.named name i j) rs = .error (.unsupportedOperation name) rs := by
  change (lift (AluOp.ofName name) >>= fun op => operate op i j) rs = _
  rw [AluOp.ofName_of_unnamed unnamed]
  rfl

theorem Asks.firstOf_iff {o : Operation} {op : AluOp} {i j : UInt8} (h : Asks o op i j)
    (bank : Bank) (f : Fault) :
    FirstOf (obstacles bank o) f ↔ FirstOf (operandObstacles bank (op = .div) i j) f := by
  cases h with
  | alu => rfl
  | @named op name i j h =>
    have supported : ¬∀ op : AluOp, ¬op.HasName name := fun unnamed => unnamed op h
    have division : AluOp.div.HasName name ↔ op = .div :=
      ⟨fun other => h.unique other, fun same => same ▸ h⟩
    rw [obstacles, division]
    constructor
    · intro first
      cases first with
      | here unnamed => exact absurd unnamed supported
      | later _ first => exact first
    · exact .later supported

theorem operate_of_first {op : AluOp} {i j : UInt8} {rs : Registers} {f : Fault}
    (first : FirstOf (operandObstacles rs.get (op = .div) i j) f) :
    operate op i j rs = .error f rs := by
  cases first with
  | here high => rw [operate_eq, AluOp.applyBytes_of_ge high]
  | later low first =>
    obtain ⟨a, rfl⟩ := (Reg.byte_or_ge i).resolve_right low
    cases first with
    | here high => rw [operate_eq, AluOp.applyBytes_byte_of_ge high]
    | later low first =>
      obtain ⟨b, rfl⟩ := (Reg.byte_or_ge j).resolve_right low
      cases first with
      | here zero =>
        obtain ⟨rfl, b', same, zero⟩ := zero
        obtain rfl : b = b' := Fin.ext (by simpa using congrArg UInt8.toNat same)
        simp [operate_eq, AluOp.applyBytes_byte, AluOp.number?, zero]
      | later _ first => cases first

theorem perform_of_first {o : Operation} {rs : Registers} {f : Fault}
    (first : FirstOf (obstacles rs.get o) f) : perform o rs = .error f rs := by
  cases o with
  | get i =>
    cases first with
    | here high => rw [perform_get, Registers.read, Reg.ofByte_of_ge high]; rfl
    | later _ first => cases first
  | set i v =>
    cases first with
    | here high => rw [perform_set, Registers.write, Reg.ofByte_of_ge high]; rfl
    | later _ first => cases first
  | sp | setSp => cases first
  | alu op i j => exact operate_of_first first
  | named name i j =>
    by_cases unnamed : ∀ op : AluOp, ¬op.HasName name
    · cases first with
      | here => exact perform_unnamed unnamed i j rs
      | later named => exact absurd unnamed named
    · obtain ⟨op, named⟩ := not_forall_not.1 unnamed
      have asks := Asks.named i j named
      rw [asks.perform_eq]
      exact operate_of_first ((asks.firstOf_iff _ _).1 first)

theorem Does.eq_perform {rs : Registers} {o : Operation} {r : Except Fault Answer} {bank : Bank}
    (h : Does rs.get o r bank) : result rs o = r ∧ (after rs o).get = bank := by
  cases h with
  | get r =>
    have performed := perform_get r.byte rs
    rw [Registers.read_byte] at performed
    simp [result, after, performed]
  | set r v =>
    have performed := perform_set r.byte v rs
    rw [Registers.write_byte] at performed
    simp [result, after, performed, get_set]
  | sp => exact ⟨rfl, rfl⟩
  | setSp v => exact ⟨rfl, get_set rs .sp v⟩
  | @store o op a b v asks number divisor =>
    have performed := asks.perform_eq rs
    have nonzero : ¬(op = .div ∧ rs.get b = 0) := fun zero => divisor zero.1 zero.2
    rw [operate_eq, AluOp.applyBytes_byte, number] at performed
    simp [result, after, performed, nonzero, get_set]
  | @compare o a b f asks tells =>
    have performed := asks.perform_eq rs
    rw [operate_eq, AluOp.applyBytes_byte] at performed
    simp [result, after, performed, AluOp.number?, tells.eq_compare]
  | refused first =>
    have performed := perform_of_first first
    simp [result, after, performed]

theorem Asks.exists_does {o : Operation} {op : AluOp} {i j : UInt8} (asks : Asks o op i j)
    (rs : Registers) : ∃ r bank, Does rs.get o r bank := by
  obtain ⟨a, rfl⟩ | high := Reg.byte_or_ge i
  · obtain ⟨b, rfl⟩ | high := Reg.byte_or_ge j
    · cases number : op.number? (rs.get a).toNat (rs.get b).toNat with
      | none =>
        obtain rfl := AluOp.eq_cmp_of_number? number
        exact ⟨_, _, .compare asks (Flags.tells_compare _ _)⟩
      | some n =>
        by_cases zero : op = .div ∧ rs.get b = 0
        · have low (r : Reg) : ¬8 ≤ r.byte.toNat := by simp
          exact ⟨_, _, .refused ((asks.firstOf_iff _ _).2
            (.later (low a) (.later (low b) (.here ⟨zero.1, b, rfl, zero.2⟩))))⟩
        · have byte : n = (UInt8.ofNat n).toNat :=
            (UInt8.toNat_ofNat_of_lt' (AluOp.lt_of_number? number)).symm
          exact ⟨_, _, .store asks (byte ▸ number) fun div none => zero ⟨div, none⟩⟩
    · have low : ¬8 ≤ a.byte.toNat := by simp
      exact ⟨_, _, .refused ((asks.firstOf_iff _ _).2 (.later low (.here high)))⟩
  · exact ⟨_, _, .refused ((asks.firstOf_iff _ _).2 (.here high))⟩

theorem exists_does (rs : Registers) (o : Operation) : ∃ r bank, Does rs.get o r bank := by
  cases o with
  | get i =>
    obtain ⟨r, rfl⟩ | high := Reg.byte_or_ge i
    · exact ⟨_, _, .get r⟩
    · exact ⟨_, _, .refused (.here high)⟩
  | set i v =>
    obtain ⟨r, rfl⟩ | high := Reg.byte_or_ge i
    · exact ⟨_, _, .set r v⟩
    · exact ⟨_, _, .refused (.here high)⟩
  | sp => exact ⟨_, _, .sp⟩
  | setSp v => exact ⟨_, _, .setSp v⟩
  | alu op i j => exact (Asks.alu op i j).exists_does rs
  | named name i j =>
    by_cases unnamed : ∀ op : AluOp, ¬op.HasName name
    · exact ⟨_, _, .refused (.here unnamed)⟩
    · obtain ⟨op, named⟩ := not_forall_not.1 unnamed
      exact (Asks.named i j named).exists_does rs

theorem does_iff {rs : Registers} {o : Operation} {r : Except Fault Answer} {bank : Bank} :
    Does rs.get o r bank ↔ result rs o = r ∧ (after rs o).get = bank := by
  constructor
  · exact Does.eq_perform
  · obtain ⟨r', bank', does⟩ := exists_does rs o
    obtain ⟨rfl, rfl⟩ := does.eq_perform
    rintro ⟨rfl, rfl⟩
    exact does

theorem result_eq_error_iff {rs : Registers} {o : Operation} {f : Fault} :
    result rs o = .error f ↔ FirstOf (obstacles rs.get o) f := by
  constructor
  · intro failed
    obtain ⟨r, bank, does⟩ := exists_does rs o
    obtain ⟨rfl, -⟩ := does.eq_perform
    rw [failed] at does
    cases does with
    | refused first => exact first
  · intro first
    simp [result, perform_of_first first]

theorem after_of_error {rs : Registers} {o : Operation} {f : Fault} (h : result rs o = .error f) :
    after rs o = rs := by
  simp [after, perform_of_first (result_eq_error_iff.1 h)]

theorem course_iff {rs : Registers} {os : List Operation} {answers : List (Except Fault Answer)}
    {bank : Bank} :
    Course rs.get os answers bank ↔ results rs os = answers ∧ (afterAll rs os).get = bank := by
  induction os generalizing rs answers with
  | nil =>
    constructor
    · rintro ⟨⟩
      exact ⟨rfl, rfl⟩
    · rintro ⟨rfl, rfl⟩
      exact .done _
  | cons o os ih =>
    constructor
    · rintro ⟨⟩
      next does later =>
        obtain ⟨rfl, rfl⟩ := does_iff.1 does
        obtain ⟨rfl, rfl⟩ := ih.1 later
        exact ⟨rfl, rfl⟩
    · rintro ⟨rfl, rfl⟩
      exact .next (does_iff.2 ⟨rfl, rfl⟩) (ih.2 ⟨rfl, rfl⟩)

theorem result_of_sp (rs : Registers) {v : UInt8} {write read : Operation}
    (writes : write = .set 7 v ∨ write = .setSp v) (reads : read = .get 7 ∨ read = .sp) :
    result (after rs write) read = .ok (.byte v) := by
  have stored : (after rs write).get = Function.update rs.get .sp v := by
    obtain rfl | rfl := writes
    · exact (does_iff.1 (.set .sp v)).2
    · exact (does_iff.1 (.setSp v)).2
  have asked : result (after rs write) read = .ok (.byte ((after rs write).get .sp)) := by
    obtain rfl | rfl := reads
    · exact (does_iff.1 (.get .sp)).1
    · exact (does_iff.1 .sp).1
  rw [asked, stored, Function.update_self]

/-- After any operations, a register file has answered and holds what a map from registers to bytes
would. A further operation fails just for the first obstacle in its way and then changes nothing.
What is written to register 7 or as the stack pointer is read from either. -/
theorem operations_are_those_of_a_map (rs : Registers) (os : List Operation) :
    (∀ answers bank, Course rs.get os answers bank ↔
      results rs os = answers ∧ (afterAll rs os).get = bank) ∧
    (∀ o f, result (afterAll rs os) o = .error f ↔
      FirstOf (obstacles (afterAll rs os).get o) f) ∧
    (∀ o f, result (afterAll rs os) o = .error f → after (afterAll rs os) o = afterAll rs os) ∧
    ∀ v write read, write = .set 7 v ∨ write = .setSp v → read = .get 7 ∨ read = .sp →
      result (after (afterAll rs os) write) read = .ok (.byte v) :=
  ⟨fun _ _ => course_iff, fun _ _ => result_eq_error_iff, fun _ _ => after_of_error,
    fun _ _ _ => result_of_sp _⟩

def subtractThenDivide : List Operation :=
  [.set 0 9, .setSp 0, .alu .sub 7 0, .sp, .named "cmp" 0 7, .named "Div" 7 1]

theorem subtractThenDivide_is_that_of_a_map :
    Course Registers.initial.get subtractThenDivide
      [.ok .done, .ok .done, .ok .done, .ok (.byte 247), .ok (.flags ⟨false, true, false⟩),
        .error .divisionByZero]
      (afterAll .initial subtractThenDivide).get ∧
    let rs := afterAll .initial subtractThenDivide
    result rs (.named "ſub" 8 8) = .error (.unsupportedOperation "ſub") ∧
      after rs (.named "ſub" 8 8) = rs ∧
      result (after rs (.set 7 5)) .sp = .ok (.byte 5) := by
  obtain ⟨courses, fails, keeps, cell⟩ :=
    operations_are_those_of_a_map .initial subtractThenDivide
  have unnamed : ∀ op : AluOp, ¬op.HasName "ſub" := by
    intro op
    cases op <;> decide +kernel
  have failed := (fails (.named "ſub" 8 8) _).2 (.here unnamed)
  exact ⟨(courses _ _).2 ⟨by decide +kernel, rfl⟩, failed, keeps _ _ failed,
    cell 5 _ _ (.inl rfl) (.inr rfl)⟩

end RegisterFile
end ByteCpu
