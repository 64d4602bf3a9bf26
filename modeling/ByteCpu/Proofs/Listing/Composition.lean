import ByteCpu.Proofs.Listing.Sweep

/-!
Listings of programs put together. Unless the first program ends within an instruction, its lines
stay as they are and the lines of the second follow, moved behind it. A listing from one of its lines
on is that of the rest of the program, and codes one after another are listed one by one.
-/

set_option autoImplicit false

namespace ByteCpu.Listing

namespace Line

def moved (n : Nat) (l : Line) : Line := { l with address := n + l.address }

/-- The line shows an opcode as data, for want of operands. -/
def CutShort (l : Line) : Prop :=
  l.kind = .data ∧ ∃ b op, l.bytes = [b] ∧ Opcode.decode b = some op

theorem read_moved (n a : Nat) (b : UInt8) (rest : List UInt8) :
    read (n + a) b rest = (read a b rest).moved n := by
  obtain ⟨op, decode, room, h⟩ | ⟨short, h⟩ := read_cases a b rest
  · rw [h, read_of_room (n + a) decode room]
    rfl
  · rw [h, read_of_no_room (n + a) short]
    rfl

theorem read_append {a : Nat} {b : UInt8} {rest : List UInt8} (whole : ¬(read a b rest).CutShort)
    (more : List UInt8) : read a b (rest ++ more) = read a b rest := by
  obtain ⟨op, decode, room, h⟩ | ⟨short, h⟩ := read_cases a b rest
  · have longer : op.operandCount ≤ (rest ++ more).length := by
      rw [List.length_append]
      omega
    rw [h, read_of_room a decode longer, List.take_append_of_le_length room]
  · rw [h] at whole ⊢
    refine read_of_no_room a fun op decode => ?_
    exact absurd ⟨rfl, b, op, rfl, decode⟩ whole

end Line

theorem sweep_moved (n a : Nat) (program : List UInt8) :
    sweep (n + a) program = (sweep a program).map (Line.moved n) := by
  fun_induction sweep a program with
  | case1 a => rw [sweep_nil, List.map_nil]
  | case2 a b rest line ih =>
    rw [List.map_cons, ← ih, sweep_cons, Line.read_moved, ← Nat.add_assoc]
    rfl

theorem sweep_append {a : Nat} {program : List UInt8} (whole : ∀ l ∈ sweep a program, ¬l.CutShort)
    (more : List UInt8) :
    sweep a (program ++ more) = sweep a program ++ sweep (a + program.length) more := by
  fun_induction sweep a program with
  | case1 a => rfl
  | case2 a b rest line ih =>
    obtain ⟨here, later⟩ := List.forall_mem_cons.1 whole
    obtain ⟨operands, others, bytes, rfl⟩ := Line.bytes_read a b rest
    have same : Line.read a b (operands ++ (others ++ more)) = line := by
      rw [← List.append_assoc]
      exact Line.read_append here more
    have longer : (Line.read a b (operands ++ (others ++ more))).bytes = b :: operands := by
      rw [same, bytes]
    have length : line.bytes.length = operands.length + 1 := by rw [bytes, List.length_cons]
    have behind : (operands ++ others).drop (line.bytes.length - 1) = others := by simp [length]
    rw [behind] at ih later ⊢
    rw [List.cons_append, List.append_assoc, sweep_cons_append longer, same, ← length, ih later,
      length, List.cons_append, List.length_cons, List.length_append]
    congr 3
    omega

def Whole (program : List UInt8) : Prop := ∀ l ∈ ofProgram program, ¬l.CutShort

theorem ofProgram_append {program : List UInt8} (whole : Whole program) (more : List UInt8) :
    ofProgram (program ++ more) =
      ofProgram program ++ (ofProgram more).map (Line.moved program.length) := by
  rw [ofProgram, sweep_append whole, Nat.zero_add, ← Nat.add_zero program.length, sweep_moved]
  rfl

theorem whole_of_stays {program : List UInt8}
    (stays : ∀ l ∈ ofProgram program, l ∈ ofProgram (program ++ [0, 0])) : Whole program := by
  rintro l member ⟨data, b, op, bytes, decode⟩
  have inside := ((tiles_ofProgram program).shows l member).inside
  have shows := (tiles_ofProgram (program ++ [0, 0])).shows l (stays l member)
  have room := shows.inside
  have wide := op.width_le
  have byte : (program ++ [0, 0])[l.address] = b := by
    have shown := shows.bytes_of_data data
    rw [bytes] at shown
    exact (List.cons.inj shown).1.symm
  have instruction := (shows.instruction_iff op).2 ⟨by rw [byte, decode], by simp; omega⟩
  rw [data] at instruction
  cases instruction

theorem from_line {program : List UInt8} {before after : List Line} {l : Line}
    (cut : ofProgram program = before ++ l :: after) :
    l :: after = (ofProgram (program.drop l.address)).map (Line.moved l.address) := by
  obtain ⟨b, rest, whole, line, swept⟩ := sweep_eq_append_cons cut
  rw [Nat.zero_add] at line
  have address : l.address = (before.flatMap (·.bytes)).length := by
    rw [line, Line.address_read]
  rw [← address] at line
  have left : program.drop l.address = b :: rest := by rw [whole, address, List.drop_left]
  rw [left, ofProgram, ← sweep_moved, Nat.add_zero, sweep_cons, ← line, swept]

theorem address_lt {program : List UInt8} {before after : List Line} {k l : Line}
    (cut : ofProgram program = before ++ l :: after) (member : k ∈ before) :
    k.address < l.address := by
  have tiles := tiles_ofProgram program
  obtain ⟨first, others, rfl⟩ := List.append_of_mem member
  have bytes : k.bytes ≠ [] := tiles.nonempty k (by rw [cut]; simp)
  have pos := List.length_pos_iff.2 bytes
  rw [tiles.address _ l _ cut, tiles.address first k (others ++ l :: after) (by rw [cut]; simp)]
  simp only [List.map_append, List.map_cons, List.sum_append, List.sum_cons]
  omega

theorem filter_address {program : List UInt8} {l : Line} (member : l ∈ ofProgram program) :
    (ofProgram program).filter (l.address ≤ ·.address) =
      (ofProgram (program.drop l.address)).map (Line.moved l.address) := by
  obtain ⟨before, after, cut⟩ := List.append_of_mem member
  have earlier : before.filter (l.address ≤ ·.address) = [] := by
    rw [List.filter_eq_nil_iff]
    intro k hk
    have less := address_lt cut hk
    simpa using less
  have later : (l :: after).filter (l.address ≤ ·.address) = l :: after := by
    rw [List.filter_eq_self, from_line cut, List.forall_mem_map]
    intro k _
    simp [Line.moved]
  rw [cut, List.filter_append, earlier, List.nil_append, later, from_line cut]

/-- An opcode with its operands, which may be any bytes. -/
structure Code where
  opcode : Opcode
  operands : Vector UInt8 opcode.operandCount

def Code.bytes (c : Code) : List UInt8 := c.opcode.byte :: c.operands.toList

def instructions (a : Nat) : List Code → List Line
  | [] => []
  | c :: cs => ⟨a, c.bytes, .instruction c.opcode⟩ :: instructions (a + c.opcode.width) cs

theorem sweep_codes (a : Nat) (cs : List Code) :
    sweep a (cs.flatMap Code.bytes) = instructions a cs := by
  induction cs generalizing a with
  | nil => exact sweep_nil a
  | cons c cs ih =>
    have count := c.operands.length_toList
    have room : c.opcode.operandCount ≤ (c.operands.toList ++ cs.flatMap Code.bytes).length := by
      rw [List.length_append]
      omega
    have read := Line.read_of_room a (Opcode.decode_byte c.opcode) room
    rw [List.take_left' count] at read
    have bytes := congrArg Line.bytes read
    rw [List.flatMap_cons, Code.bytes, List.cons_append, sweep_cons_append bytes, read, count, ih,
      Nat.add_comm c.opcode.operandCount 1]
    rfl

/-- Listings compose where no instruction is cut short, and only there; from any line on, a listing
is that of the rest of the program; and what is written code by code is listed code by code. -/
theorem listings_compose (program : List UInt8) :
    (Whole program ↔ ∀ more, ofProgram (program ++ more) =
      ofProgram program ++ (ofProgram more).map (Line.moved program.length)) ∧
    (∀ l ∈ ofProgram program, (ofProgram program).filter (l.address ≤ ·.address) =
      (ofProgram (program.drop l.address)).map (Line.moved l.address)) ∧
    ∀ cs : List Code, ofProgram (cs.flatMap Code.bytes) = instructions 0 cs := by
  refine ⟨⟨ofProgram_append, fun composes => ?_⟩, fun l member => filter_address member,
    sweep_codes 0⟩
  refine whole_of_stays fun l member => ?_
  rw [composes]
  exact List.mem_append_left _ member

def jumpOperand : List UInt8 := [0xFF, Opcode.jmp.byte, Opcode.hlt.byte]

def loadThenReturn : List Code := [⟨.ldi, #v[Opcode.hlt.byte, Opcode.prn.byte]⟩, ⟨.ret, #v[]⟩]

theorem jumpOperand_composes :
    Whole jumpOperand ∧
      ofProgram (jumpOperand ++ [Opcode.ldi.byte, 3]) =
        [⟨0, [0xFF], .data⟩, ⟨1, [Opcode.jmp.byte, Opcode.hlt.byte], .instruction .jmp⟩,
          ⟨3, [Opcode.ldi.byte], .data⟩, ⟨4, [3], .data⟩] ∧
      (ofProgram jumpOperand).filter (1 ≤ ·.address) =
        (ofProgram [Opcode.jmp.byte, Opcode.hlt.byte]).map (Line.moved 1) ∧
      ofProgram (loadThenReturn.flatMap Code.bytes) =
        [⟨0, [Opcode.ldi.byte, Opcode.hlt.byte, Opcode.prn.byte], .instruction .ldi⟩,
          ⟨3, [Opcode.ret.byte], .instruction .ret⟩] := by
  have swept : ofProgram jumpOperand =
      [⟨0, [0xFF], .data⟩, ⟨1, [Opcode.jmp.byte, Opcode.hlt.byte], .instruction .jmp⟩] := by
    decide +kernel
  have cut : ofProgram [Opcode.ldi.byte, 3] =
      [⟨0, [Opcode.ldi.byte], .data⟩, ⟨1, [3], .data⟩] := by
    decide +kernel
  have whole : Whole jumpOperand := by
    have unknown : Opcode.decode 0xFF = none := by decide
    simp [Whole, swept, Line.CutShort, unknown]
  obtain ⟨composes, fromLine, codes⟩ := listings_compose jumpOperand
  refine ⟨whole, ?_, fromLine ⟨1, [Opcode.jmp.byte, Opcode.hlt.byte], .instruction .jmp⟩ ?_, codes _⟩
  · rw [composes.1 whole, swept, cut]
    rfl
  · rw [swept]
    simp

end ByteCpu.Listing
