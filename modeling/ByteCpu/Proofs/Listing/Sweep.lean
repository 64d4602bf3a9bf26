import ByteCpu.Program.Listing
import Mathlib

/-!
Sweeping a program. The lines of its listing lie end to end over it, and each shows what stands at
its address; no other lines do.
-/

set_option autoImplicit false

namespace ByteCpu.Listing

/-- A line shows what stands in a program at its address: an instruction if all its bytes are there,
else a byte of data. -/
structure Line.Shows (program : List UInt8) (l : Line) : Prop where
  inside : l.address < program.length
  instruction_iff : ∀ op, l.kind = .instruction op ↔
    Opcode.decode program[l.address] = some op ∧ l.address + op.width ≤ program.length
  bytes_of_instruction : ∀ op, l.kind = .instruction op →
    l.bytes = (program.drop l.address).take op.width
  bytes_of_data : l.kind = .data → l.bytes = [program[l.address]]

/-- Lines that lie end to end over a program and show it. -/
structure Tiles (program : List UInt8) (lines : List Line) : Prop where
  bytes : lines.flatMap (·.bytes) = program
  nonempty : ∀ l ∈ lines, l.bytes ≠ []
  address : ∀ before l after, lines = before ++ l :: after →
    l.address = (before.map (·.bytes.length)).sum
  shows : ∀ l ∈ lines, l.Shows program

@[simp] theorem sweep_nil (a : Nat) : sweep a [] = [] := by simp [sweep]

theorem sweep_cons (a : Nat) (b : UInt8) (rest : List UInt8) :
    sweep a (b :: rest) = Line.read a b rest ::
      sweep (a + (Line.read a b rest).bytes.length)
        (rest.drop ((Line.read a b rest).bytes.length - 1)) := by
  rw [sweep]

theorem Line.read_of_room {b : UInt8} {op : Opcode} {rest : List UInt8} (a : Nat)
    (decode : Opcode.decode b = some op) (room : op.operandCount ≤ rest.length) :
    Line.read a b rest = ⟨a, b :: rest.take op.operandCount, .instruction op⟩ := by
  simp [Line.read, decode, room]

theorem Line.read_of_no_room {b : UInt8} {rest : List UInt8} (a : Nat)
    (short : ∀ op, Opcode.decode b = some op → rest.length < op.operandCount) :
    Line.read a b rest = ⟨a, [b], .data⟩ := by
  unfold Line.read
  cases decode : Opcode.decode b with
  | none => rfl
  | some op =>
    have h := short op decode
    simp only [List.length_take]
    rw [if_neg (by omega)]

theorem Line.read_cases (a : Nat) (b : UInt8) (rest : List UInt8) :
    (∃ op, Opcode.decode b = some op ∧ op.operandCount ≤ rest.length ∧
        Line.read a b rest = ⟨a, b :: rest.take op.operandCount, .instruction op⟩) ∨
      (∀ op, Opcode.decode b = some op → rest.length < op.operandCount) ∧
        Line.read a b rest = ⟨a, [b], .data⟩ := by
  by_cases h : ∃ op, Opcode.decode b = some op ∧ op.operandCount ≤ rest.length
  · obtain ⟨op, decode, room⟩ := h
    exact .inl ⟨op, decode, room, Line.read_of_room a decode room⟩
  · have short (op : Opcode) (decode : Opcode.decode b = some op) :
        rest.length < op.operandCount :=
      Nat.lt_of_not_le fun room => h ⟨op, decode, room⟩
    exact .inr ⟨short, Line.read_of_no_room a short⟩

@[simp] theorem Line.address_read (a : Nat) (b : UInt8) (rest : List UInt8) :
    (Line.read a b rest).address = a := by
  obtain ⟨op, -, -, h⟩ | ⟨-, h⟩ := Line.read_cases a b rest <;> rw [h]

theorem Line.bytes_read (a : Nat) (b : UInt8) (rest : List UInt8) :
    ∃ operands others, (Line.read a b rest).bytes = b :: operands ∧ rest = operands ++ others := by
  obtain ⟨op, -, -, h⟩ | ⟨-, h⟩ := Line.read_cases a b rest
  · exact ⟨_, rest.drop op.operandCount, by rw [h], (List.take_append_drop _ _).symm⟩
  · exact ⟨[], rest, by rw [h], rfl⟩

theorem sweep_cons_append {a : Nat} {b : UInt8} {operands others : List UInt8}
    (bytes : (Line.read a b (operands ++ others)).bytes = b :: operands) :
    sweep a (b :: (operands ++ others)) =
      Line.read a b (operands ++ others) :: sweep (a + (operands.length + 1)) others := by
  rw [sweep_cons, bytes]
  simp

theorem exists_sweep_cons (a : Nat) (b : UInt8) (rest : List UInt8) :
    ∃ operands others, rest = operands ++ others ∧
      (Line.read a b rest).bytes = b :: operands ∧
      sweep a (b :: rest) = Line.read a b rest :: sweep (a + (operands.length + 1)) others := by
  obtain ⟨operands, others, bytes, cut⟩ := Line.bytes_read a b rest
  subst cut
  exact ⟨operands, others, rfl, bytes, sweep_cons_append bytes⟩

theorem bytes_sweep (a : Nat) (program : List UInt8) :
    (sweep a program).flatMap (·.bytes) = program := by
  fun_induction sweep a program with
  | case1 => rfl
  | case2 a b rest line ih =>
    obtain ⟨operands, others, bytes, rfl⟩ := Line.bytes_read a b rest
    rw [List.flatMap_cons, ih]
    simp only [line, bytes]
    simp

theorem sweep_eq_append_cons {a : Nat} {program : List UInt8} {before after : List Line} {l : Line}
    (h : sweep a program = before ++ l :: after) :
    ∃ b rest, program = before.flatMap (·.bytes) ++ b :: rest ∧
      l = Line.read (a + (before.flatMap (·.bytes)).length) b rest ∧
      after = sweep (l.address + l.bytes.length) (rest.drop (l.bytes.length - 1)) := by
  induction before generalizing a program with
  | nil =>
    cases program with
    | nil => simp at h
    | cons b rest =>
      rw [sweep_cons] at h
      obtain ⟨rfl, rfl⟩ := List.cons.inj h
      exact ⟨b, rest, rfl, rfl, by simp⟩
  | cons k before ih =>
    cases program with
    | nil => simp at h
    | cons b rest =>
      obtain ⟨operands, others, rfl, bytes, swept⟩ := exists_sweep_cons a b rest
      rw [swept] at h
      obtain ⟨rfl, later⟩ := List.cons.inj h
      obtain ⟨c, rest', rfl, rfl, after⟩ := ih later
      refine ⟨c, rest', by simp [bytes], ?_, after⟩
      simp [bytes, Nat.add_assoc, Nat.add_comm, Nat.add_left_comm]

theorem Line.eq_read_iff {l : Line} {b : UInt8} {rest : List UInt8} :
    l = Line.read l.address b rest ↔
      (∀ op, l.kind = .instruction op ↔
        Opcode.decode b = some op ∧ op.operandCount ≤ rest.length) ∧
      (∀ op, l.kind = .instruction op → l.bytes = b :: rest.take op.operandCount) ∧
      (l.kind = .data → l.bytes = [b]) := by
  obtain ⟨a, bytes, kind⟩ := l
  obtain ⟨op, decode, room, read⟩ | ⟨short, read⟩ := Line.read_cases a b rest
  · simp only [read, Line.mk.injEq, true_and]
    constructor
    · rintro ⟨rfl, rfl⟩
      simp [decode, room]
    · rintro ⟨kinds, bytes, -⟩
      have same := (kinds op).2 ⟨decode, room⟩
      exact ⟨bytes op same, same⟩
  · simp only [read, Line.mk.injEq, true_and]
    constructor
    · rintro ⟨rfl, rfl⟩
      simpa using short
    · rintro ⟨kinds, -, bytes⟩
      cases kind with
      | data => exact ⟨bytes rfl, rfl⟩
      | instruction op =>
        obtain ⟨decode, room⟩ := (kinds op).1 rfl
        have less := short op decode
        omega

/-- What stands behind a beginning of a program is shown by the line that is read there, and by no
other line at that address. -/
theorem Line.shows_append_cons_iff {front rest : List UInt8} {b : UInt8} {l : Line}
    (address : l.address = front.length) :
    l.Shows (front ++ b :: rest) ↔ l = Line.read l.address b rest := by
  have here (h : l.address < (front ++ b :: rest).length) :
      (front ++ b :: rest)[l.address] = b := by
    simp [address]
  have fits (op : Opcode) : l.address + op.width ≤ (front ++ b :: rest).length ↔
      op.operandCount ≤ rest.length := by
    simp [address, Opcode.width]
    omega
  have taken (op : Opcode) : ((front ++ b :: rest).drop l.address).take op.width =
      b :: rest.take op.operandCount := by
    simp [address, Opcode.width, Nat.add_comm 1]
  have inside : l.address < (front ++ b :: rest).length := by simp [address]
  rw [Line.eq_read_iff]
  constructor
  · rintro ⟨inside, kinds, instruction, data⟩
    simp only [here inside, fits, taken] at kinds instruction data
    exact ⟨kinds, instruction, data⟩
  · rintro ⟨kinds, instruction, data⟩
    refine ⟨inside, ?_, ?_, ?_⟩
    all_goals simpa only [here inside, fits, taken]

theorem Line.Shows.length_bytes {program : List UInt8} {l : Line} {op : Opcode}
    (h : l.Shows program)
    (kind : l.kind = .instruction op) : l.bytes.length = op.width := by
  have room := ((h.instruction_iff op).1 kind).2
  rw [h.bytes_of_instruction op kind, List.length_take, List.length_drop]
  omega

theorem Line.Shows.head?_bytes {program : List UInt8} {l : Line} (h : l.Shows program) :
    l.bytes[0]? = program[l.address]? := by
  cases kind : l.kind with
  | data => rw [h.bytes_of_data kind, List.getElem?_eq_getElem h.inside]; rfl
  | instruction op =>
    rw [h.bytes_of_instruction op kind, List.getElem?_take_of_lt op.width_pos]
    simp

theorem sum_map_length (lines : List Line) :
    (lines.map (·.bytes.length)).sum = (lines.flatMap (·.bytes)).length := by
  rw [List.length_flatMap]

theorem length_le_length_bytes {lines : List Line} (h : ∀ l ∈ lines, l.bytes ≠ []) :
    lines.length ≤ (lines.flatMap (·.bytes)).length := by
  induction lines with
  | nil => simp
  | cons l lines ih =>
    obtain ⟨here, later⟩ := List.forall_mem_cons.1 h
    have some := List.length_pos_iff.2 here
    have rest := ih later
    simp only [List.length_cons, List.flatMap_cons, List.length_append]
    omega

theorem tiles_ofProgram (program : List UInt8) : Tiles program (ofProgram program) := by
  have place {before after : List Line} {l : Line} (h : ofProgram program = before ++ l :: after) :
      l.address = (before.flatMap (·.bytes)).length ∧ l.bytes ≠ [] ∧ l.Shows program := by
    obtain ⟨b, rest, cut, line, -⟩ := sweep_eq_append_cons h
    rw [Nat.zero_add] at line
    have address : l.address = (before.flatMap (·.bytes)).length := by
      rw [line, Line.address_read]
    obtain ⟨operands, others, bytes, -⟩ := Line.bytes_read (before.flatMap (·.bytes)).length b rest
    refine ⟨address, ?_, ?_⟩
    · rw [line, bytes]
      exact List.cons_ne_nil _ _
    · rw [cut, Line.shows_append_cons_iff address, address]
      exact line
  refine ⟨bytes_sweep 0 program, fun l hl => ?_, fun before l after h => ?_, fun l hl => ?_⟩
  · obtain ⟨before, after, h⟩ := List.append_of_mem hl
    exact (place h).2.1
  · rw [sum_map_length, (place h).1]
  · obtain ⟨before, after, h⟩ := List.append_of_mem hl
    exact (place h).2.2

theorem Tiles.eq_sweep {program : List UInt8} (done : List Line) {todo : List Line}
    (h : Tiles program (done ++ todo)) :
    todo = sweep (done.flatMap (·.bytes)).length (todo.flatMap (·.bytes)) := by
  induction todo generalizing done with
  | nil => simp
  | cons l todo ih =>
    have member : l ∈ done ++ l :: todo := by simp
    have address : l.address = (done.flatMap (·.bytes)).length := by
      rw [h.address done l todo rfl, sum_map_length]
    obtain ⟨b, operands, bytes⟩ := List.exists_cons_of_ne_nil (h.nonempty l member)
    have shows := h.shows l member
    have cut : program = done.flatMap (·.bytes) ++ b :: (operands ++ todo.flatMap (·.bytes)) := by
      simp [← h.bytes, bytes]
    rw [cut, Line.shows_append_cons_iff address] at shows
    have later := ih (done ++ [l]) (by simpa using h)
    have whole : (l :: todo).flatMap (·.bytes) = b :: (operands ++ todo.flatMap (·.bytes)) := by
      simp [bytes]
    rw [whole, sweep_cons, ← address, ← shows, bytes]
    congr 1
    simpa [bytes, address] using later

/-- The listing of a program is the one list of lines that lie end to end over it and show what
stands there. It has no more lines than the program has bytes, and where it shows an opcode as data,
at most two bytes are left. -/
theorem ofProgram_is_the_tiling (program : List UInt8) :
    (∀ lines, Tiles program lines ↔ lines = ofProgram program) ∧
      (ofProgram program).length ≤ program.length ∧
      ∀ l ∈ ofProgram program, ∀ b op, l.kind = .data → l.bytes = [b] →
        Opcode.decode b = some op → program.length ≤ l.address + 2 := by
  have tiles := tiles_ofProgram program
  refine ⟨fun lines => ⟨fun h => ?_, fun h => h ▸ tiles⟩, ?_, fun l hl b op data bytes decode => ?_⟩
  · have swept := Tiles.eq_sweep [] h
    rwa [h.bytes] at swept
  · have count := length_le_length_bytes tiles.nonempty
    rwa [tiles.bytes] at count
  · obtain ⟨inside, instruction_iff, -, bytes_of_data⟩ := tiles.shows l hl
    have byte : program[l.address] = b := by
      rw [bytes_of_data data] at bytes
      exact (List.cons.inj bytes).1
    have cut : ¬l.address + op.width ≤ program.length := by
      intro room
      have shown := (instruction_iff op).2 ⟨by rw [byte, decode], room⟩
      rw [data] at shown
      cases shown
    have wide := Opcode.width_le op
    omega

def cutShort : List UInt8 := [0xFF, Opcode.jmp.byte, Opcode.hlt.byte, Opcode.ldi.byte, 3]

theorem cutShort_is_the_tiling :
    Tiles cutShort
      [⟨0, [0xFF], .data⟩, ⟨1, [Opcode.jmp.byte, Opcode.hlt.byte], .instruction .jmp⟩,
        ⟨3, [Opcode.ldi.byte], .data⟩, ⟨4, [3], .data⟩] ∧
      cutShort.length ≤ 3 + 2 := by
  have swept : ofProgram cutShort =
      [⟨0, [0xFF], .data⟩, ⟨1, [Opcode.jmp.byte, Opcode.hlt.byte], .instruction .jmp⟩,
        ⟨3, [Opcode.ldi.byte], .data⟩, ⟨4, [3], .data⟩] := by
    decide +kernel
  obtain ⟨tiling, -, late⟩ := ofProgram_is_the_tiling cutShort
  refine ⟨(tiling _).2 swept.symm, ?_⟩
  exact late ⟨3, [Opcode.ldi.byte], .data⟩ (by simp [swept]) Opcode.ldi.byte .ldi rfl rfl
    (Opcode.decode_byte .ldi)

end ByteCpu.Listing
