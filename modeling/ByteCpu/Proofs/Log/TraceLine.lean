import ByteCpu.Log.Event
import ByteCpu.Proofs.Text.Numerals
import Mathlib

/-!
Trace lines read back. A line is cut into words, and its upper-case hexadecimal words give the
program counter, the cells there as far as they exist, and the registers.
-/

set_option autoImplicit false

namespace ByteCpu

namespace Text

def upperNumeral? (cs : List Char) : Option Nat :=
  if cs.any Char.isLower then none else numeral? 16 (cs.map Char.toLower)

def upperByte? (cs : List Char) : Option UInt8 :=
  if cs.length = 2 then (upperNumeral? cs).map UInt8.ofNat else none

theorem upperNumeral?_digits (width n : Nat) :
    upperNumeral? ((digits 16 width n).map Char.toUpper) = some n := by
  have upper : ((digits 16 width n).map Char.toUpper).any Char.isLower = false := by
    rw [List.any_map, List.any_eq_false]
    exact forall_mem_digits (by decide) (by decide) width n
  have lower : ((digits 16 width n).map Char.toUpper).map Char.toLower = digits 16 width n := by
    rw [List.map_map]
    have each : ∀ c ∈ digits 16 width n, (Char.toLower ∘ Char.toUpper) c = c :=
      forall_mem_digits (by decide) (by decide) width n
    exact (List.map_congr_left each).trans (List.map_id _)
  rw [upperNumeral?, upper, if_neg Bool.false_ne_true, lower]
  exact numeral?_digits (by decide) (by decide) width n

theorem upperByte?_digits (b : UInt8) :
    upperByte? ((digits 16 2 b.toNat).map Char.toUpper) = some b := by
  have two : (digits 16 2 b.toNat).length = 2 :=
    length_digits (by decide) (by decide) b.toNat_lt
  rw [upperByte?, List.length_map, if_pos two, upperNumeral?_digits, Option.map_some,
    UInt8.ofNat_toNat]

theorem splitOn_words {w : List Char} {ws : List (List Char)} (here : ' ' ∉ w)
    (free : ∀ v ∈ ws, ' ' ∉ v) : (w ++ ws.flatMap (' ' :: ·)).splitOn ' ' = w :: ws := by
  induction ws generalizing w with
  | nil => rw [List.flatMap_nil, List.append_nil, List.splitOn_eq_singleton here]
  | cons v ws ih =>
    obtain ⟨next, later⟩ := List.forall_mem_cons.1 free
    rw [List.flatMap_cons, List.cons_append, List.splitOn_append_cons_self,
      List.splitOn_eq_singleton here, ih next later]
    rfl

end Text

namespace Snapshot

def cellWord? : List Char → Option (Option UInt8)
  | ['-', '-'] => some none
  | w => (Text.upperByte? w).map some

/-- The words of a trace line: the program counter, three cells and eight registers, with a bar
before the cells and before the registers. -/
def ofWords? : List (List Char) → Option Snapshot
  | ['T', 'R', 'A', 'C', 'E', ':'] :: pc :: ['|'] :: a :: b :: c :: ['|'] :: registers =>
    if registers.length = 8 then do
      return ⟨← Text.upperNumeral? pc, ← [a, b, c].mapM cellWord?, ← registers.mapM Text.upperByte?⟩
    else none
  | _ => none

def ofLine? (line : String) : Option Snapshot := ofWords? (line.toList.splitOn ' ')

def hexWord (width n : Nat) : List Char := (Text.digits 16 width n).map Char.toUpper

def cellWord : Option UInt8 → List Char
  | none => ['-', '-']
  | some b => hexWord 2 b.toNat

def words (s : Snapshot) : List (List Char) :=
  hexWord 2 s.pc :: ['|'] ::
    (s.window.map cellWord ++ ['|'] :: s.registers.map fun b => hexWord 2 b.toNat)

theorem toList_byteText (b : UInt8) : (byteText b).toList = hexWord 2 b.toNat :=
  String.toList_ofList

theorem toList_text (s : Snapshot) :
    (Log.Event.fetching s).text.toList =
      ['T', 'R', 'A', 'C', 'E', ':'] ++ s.words.flatMap (' ' :: ·) := by
  have cell (c : Option UInt8) : ((c.map byteText).getD "--").toList = cellWord c := by
    cases c with
    | none => decide
    | some b => exact toList_byteText b
  have text : (Log.Event.fetching s).text = "TRACE: " ++ s.render := rfl
  rw [text]
  simp [render, words, String.toList_join, List.flatMap_map, cell, toList_byteText,
    Text.upperHex, hexWord]

theorem not_mem_hexWord {c : Char} (other : ∀ d < 16, d.digitChar.toUpper ≠ c) (width n : Nat) :
    c ∉ hexWord width n := by
  intro h
  obtain ⟨x, hx, same⟩ := List.mem_map.1 h
  exact Text.forall_mem_digits (P := fun x => x.toUpper ≠ c) (by decide) other width n x hx same

theorem blank_not_mem_words (s : Snapshot) : ∀ w ∈ s.words, ' ' ∉ w := by
  have hex (n : Nat) : ' ' ∉ hexWord 2 n := not_mem_hexWord (by decide) 2 n
  intro w hw
  simp only [words, List.mem_cons, List.mem_append, List.mem_map] at hw
  obtain rfl | rfl | ⟨c, -, rfl⟩ | rfl | ⟨b, -, rfl⟩ := hw
  · exact hex s.pc
  · decide
  · cases c with
    | none => decide
    | some b => exact hex b.toNat
  · decide
  · exact hex b.toNat

theorem cellWord?_cellWord (c : Option UInt8) : cellWord? (cellWord c) = some c := by
  cases c with
  | none => rfl
  | some b =>
    have digits : cellWord (some b) ≠ ['-', '-'] := by
      intro dashes
      refine not_mem_hexWord (c := '-') (by decide) 2 b.toNat ?_
      rw [cellWord] at dashes
      rw [dashes]
      exact List.mem_cons_self
    unfold cellWord?
    split
    next dashes => exact absurd dashes digits
    next => exact congrArg (Option.map some) (Text.upperByte?_digits b)

theorem mapM_map_eq_some {α β : Type} {f : α → β} {g : β → Option α} (h : ∀ a, g (f a) = some a)
    (as : List α) : (as.map f).mapM g = some as := by
  induction as with
  | nil => rfl
  | cons a as ih => simp [h, ih]

theorem ofWords?_words {s : Snapshot} (cells : s.window.length = 3)
    (eight : s.registers.length = 8) :
    ofWords? (['T', 'R', 'A', 'C', 'E', ':'] :: s.words) = some s := by
  obtain ⟨pc, window, registers⟩ := s
  obtain ⟨a, b, c, rfl⟩ := List.length_eq_three.1 cells
  have bytes : (registers.map fun b => hexWord 2 b.toNat).mapM Text.upperByte? = some registers :=
    mapM_map_eq_some Text.upperByte?_digits registers
  have number : Text.upperNumeral? (hexWord 2 pc) = some pc := Text.upperNumeral?_digits 2 pc
  have count : (registers.map fun b => hexWord 2 b.toNat).length = 8 :=
    (List.length_map _).trans eight
  simp [ofWords?, words, count, bytes, number, cellWord?_cellWord]

theorem ofLine?_text {s : Snapshot} (cells : s.window.length = 3) (eight : s.registers.length = 8) :
    ofLine? (Log.Event.fetching s).text = some s := by
  have cut : (Log.Event.fetching s).text.toList.splitOn ' ' =
      ['T', 'R', 'A', 'C', 'E', ':'] :: s.words := by
    rw [toList_text, Text.splitOn_words (by decide) s.blank_not_mem_words]
  rw [ofLine?, cut]
  exact ofWords?_words cells eight

end Snapshot

namespace Machine

theorem ofLine?_snapshot (m : Machine) :
    Snapshot.ofLine? (Log.Event.fetching m.snapshot).text = some m.snapshot :=
  Snapshot.ofLine?_text rfl (by simp [snapshot, Registers.toList])

/-- A trace line tells the program counter, the cells there as far as they exist, and all
registers. -/
theorem snapshot_determines {m m' : Machine} (same : m.snapshot = m'.snapshot) :
    m.pc = m'.pc ∧
      (∀ k < 3, (m.memory.read (m.pc + k)).toOption = (m'.memory.read (m'.pc + k)).toOption) ∧
      m.registers = m'.registers := by
  have pc : m.pc = m'.pc := congrArg Snapshot.pc same
  have cells : ([0, 1, 2].map fun k => (m.memory.read (m.pc + k)).toOption) =
      [0, 1, 2].map fun k => (m'.memory.read (m'.pc + k)).toOption := congrArg Snapshot.window same
  have registers := congrArg Snapshot.registers same
  refine ⟨pc, fun k less => ?_, ?_⟩
  · have shown : k ∈ [0, 1, 2] := by
      simp only [List.mem_cons, List.not_mem_nil, or_false]
      omega
    exact List.map_inj_left.1 cells k shown
  · exact congrArg Registers.mk (Vector.toList_inj.1 registers)

end Machine
end ByteCpu
