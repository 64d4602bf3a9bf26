import ByteCpu.Proofs.Listing.Sweep
import ByteCpu.Proofs.Machine.Faults
import ByteCpu.Proofs.Text.Numerals
import Mathlib

/-!
Printed listings read back. A printed line is cut into three columns. The hexadecimal bytes are one
account of the line, the text, which is assembled, is another, and both give the program.
-/

set_option autoImplicit false

namespace ByteCpu

def Opcode.ofMnemonic? (word : List Char) : Option Opcode :=
  all.find? fun op => op.mnemonic.toList == word

@[simp] theorem Opcode.ofMnemonic?_mnemonic (op : Opcode) :
    ofMnemonic? op.mnemonic.toList = some op := by
  cases op with
  | alu op => cases op <;> decide
  | _ => decide

theorem Opcode.letters_mnemonic (op : Opcode) : op.mnemonic.toList.all Char.isUpper = true := by
  cases op with
  | alu op => cases op <;> decide
  | _ => decide

namespace OperandKind

def write : OperandKind → UInt8 → List Char
  | .register, b => 'R' :: Text.digits 10 0 b.toNat
  | .value, b => Text.digits 10 0 b.toNat

def read? : OperandKind → List Char → Option UInt8
  | .register, 'R' :: cs => Text.byteNumeral? 10 cs
  | .register, _ => none
  | .value, cs => Text.byteNumeral? 10 cs

@[simp] theorem read?_write (kind : OperandKind) (b : UInt8) :
    kind.read? (kind.write b) = some b := by
  cases kind <;> simp [read?, write, Text.byteNumeral?_digits]

theorem not_mem_write (kind : OperandKind) (b : UInt8) : ',' ∉ kind.write b := by
  have digits : ',' ∉ Text.digits 10 0 b.toNat :=
    Text.not_mem_digits (by decide) (by decide) 0 b.toNat (by decide)
  cases kind <;> simpa [write] using digits

end OperandKind

namespace Listing

structure Columns where
  address : List Char
  bytes : List Char
  text : List Char

/-- The first column ends at the colon. The next is eight characters between two pairs of blanks. -/
def Columns.cut (s : String) : Columns :=
  let address := s.toList.takeWhile (· != ':')
  let rest := s.toList.drop address.length
  ⟨address, (rest.drop 3).take 8, rest.drop 13⟩

def words (cs : List Char) : List (List Char) := (cs.splitOn ' ').filter (!·.isEmpty)

def operands? : List OperandKind → List (List Char) → Option (List UInt8)
  | [], [] => some []
  | kind :: kinds, field :: fields => do return (← kind.read? field) :: (← operands? kinds fields)
  | _, _ => none

def instruction? (name : List Char) (fields : List (List Char)) : Option (List UInt8) :=
  (Opcode.ofMnemonic? name).bind fun op =>
    (operands? op.operandKinds fields).map (op.byte :: ·)

def datum? : List (List Char) → Option (List UInt8)
  | ['0' :: 'b' :: bits] =>
    if bits.length = 8 then (Text.byteNumeral? 2 bits).map ([·]) else none
  | _ => none

/-- A text is a name, and after a blank what it applies to, between commas. -/
def assemble? (text : List Char) : Option (List UInt8) :=
  let name := text.takeWhile (· != ' ')
  let fields :=
    match text.drop name.length with
    | [] => []
    | _ :: rest => rest.splitOn ','
  if name = ['.', 'b', 'y', 't', 'e'] then datum? fields else instruction? name fields

namespace Columns

def address? (c : Columns) : Option Nat := Text.numeral? 16 c.address

def raw? (c : Columns) : Option (List UInt8) := (words c.bytes).mapM (Text.byteNumeral? 16)

def assembled? (c : Columns) : Option (List UInt8) := assemble? c.text

end Columns

/-- What the lines of a printed listing say together, by one account of each. -/
def readBack (read? : Columns → Option (List UInt8)) : List String → Option (List UInt8)
  | [] => some []
  | s :: printed => do return (← read? (Columns.cut s)) ++ (← readBack read? printed)

theorem takeWhile_ne_append {c : Char} {cs : List Char} (h : c ∉ cs) (rest : List Char) :
    (cs ++ rest).takeWhile (· != c) = cs ++ rest.takeWhile (· != c) := by
  refine List.takeWhile_append_of_pos fun d hd => ?_
  exact bne_iff_ne.2 fun same => h (same ▸ hd)

theorem Columns.cut_ofList {address bytes text : List Char} (colon : ':' ∉ address)
    (width : bytes.length = 8) :
    Columns.cut (String.ofList (address ++ ':' :: ' ' :: ' ' :: (bytes ++ ' ' :: ' ' :: text))) =
      ⟨address, bytes, text⟩ := by
  have behind : (bytes ++ ' ' :: ' ' :: text).drop 10 = text := by
    rw [List.drop_append, List.drop_eq_nil_of_le (by omega), width]
    rfl
  simp [Columns.cut, takeWhile_ne_append colon, ← width, behind]

theorem splitOn_append_blanks (cs : List Char) (n : Nat) :
    (cs ++ List.replicate n ' ').splitOn ' ' = cs.splitOn ' ' ++ List.replicate n [] := by
  induction n generalizing cs with
  | zero => simp
  | succ n ih =>
    have blanks := ih []
    rw [List.nil_append, List.splitOn_nil] at blanks
    rw [List.replicate_succ, List.splitOn_append_cons_self, blanks]
    rfl

theorem words_intercalate {ws : List (List Char)} (some : ws ≠ [])
    (nonempty : ∀ w ∈ ws, w ≠ []) (blank : ∀ w ∈ ws, ' ' ∉ w) (n : Nat) :
    words ([' '].intercalate ws ++ List.replicate n ' ') = ws := by
  rw [words, splitOn_append_blanks, List.splitOn_intercalate ' ' blank some, List.filter_append,
    List.filter_eq_self.2 (by simpa using nonempty)]
  simp

theorem length_intercalate_blank {ws : List (List Char)} {k : Nat}
    (width : ∀ w ∈ ws, w.length = k) (some : ws ≠ []) :
    ([' '].intercalate ws).length + 1 = (k + 1) * ws.length := by
  induction ws with
  | nil => exact absurd rfl some
  | cons w ws ih =>
    obtain ⟨first, later⟩ := List.forall_mem_cons.1 width
    cases ws with
    | nil => simp [first]
    | cons v ws =>
      have rest := ih later (List.cons_ne_nil v ws)
      simp only [List.intercalate_cons_cons, List.length_append, List.length_cons, first,
        List.length_nil, Nat.mul_add] at rest ⊢
      omega

namespace Line

def hexWords (l : Line) : List (List Char) := l.bytes.map fun b => Text.digits 16 2 b.toNat

theorem mapM_hexWords (l : Line) : l.hexWords.mapM (Text.byteNumeral? 16) = some l.bytes := by
  rw [hexWords]
  induction l.bytes with
  | nil => rfl
  | cons b bytes ih => simp [ih, Text.byteNumeral?_digits]

def hexColumn (l : Line) : List Char :=
  [' '].intercalate l.hexWords ++
    List.replicate (8 - ([' '].intercalate l.hexWords).length) ' '

theorem toList_columns (l : Line) : l.columns.toList =
    Text.digits 16 2 l.address ++ ':' :: ' ' :: ' ' :: (l.hexColumn ++ [' ', ' ']) := by
  have hex : (String.intercalate " " (l.bytes.map hexByte)).toList =
      [' '].intercalate l.hexWords := by
    simp [String.toList_intercalate, hexWords, hexByte, Text.hex, Function.comp_def]
  have size : (String.intercalate " " (l.bytes.map hexByte)).length =
      ([' '].intercalate l.hexWords).length := by
    rw [← hex, String.length_toList]
  simp only [columns, hexColumn, Text.hex, String.toList_append, String.toList_ofList, hex, size]
  simp

theorem length_hexColumn {l : Line} (nonempty : l.bytes ≠ []) (few : l.bytes.length ≤ 3) :
    l.hexColumn.length = 8 := by
  have pairs : ∀ w ∈ l.hexWords, w.length = 2 := by
    intro w hw
    obtain ⟨b, -, rfl⟩ := List.mem_map.1 hw
    exact Text.length_digits (by decide) (by decide) b.toNat_lt
  have size := length_intercalate_blank pairs (by simpa [hexWords] using nonempty)
  have count : l.hexWords.length = l.bytes.length := List.length_map _
  rw [hexColumn, List.length_append, List.length_replicate]
  omega

theorem words_hexColumn {l : Line} (nonempty : l.bytes ≠ []) : words l.hexColumn = l.hexWords := by
  refine words_intercalate (by simpa [hexWords] using nonempty) ?_ ?_ _
  · intro w hw
    obtain ⟨b, -, rfl⟩ := List.mem_map.1 hw
    have two := Text.le_length_digits 16 2 b.toNat
    exact List.ne_nil_of_length_pos (by omega)
  · intro w hw
    obtain ⟨b, -, rfl⟩ := List.mem_map.1 hw
    exact Text.not_mem_digits (by decide) (by decide) 2 b.toNat (by decide)

def printed (l : Line) (text : List Char) : List Char :=
  Text.digits 16 2 l.address ++ ':' :: ' ' :: ' ' :: (l.hexColumn ++ ' ' :: ' ' :: text)

theorem render?_of_text {l : Line} {text : List Char} (h : l.text? = some (String.ofList text)) :
    l.render? = some (String.ofList (l.printed text)) := by
  simp [render?, h, printed, ← String.toList_inj, toList_columns]

def phrase (op : Opcode) : List (List Char) → List Char
  | [] => op.mnemonic.toList
  | fields => op.mnemonic.toList ++ ' ' :: [','].intercalate fields

theorem text?_instruction {a : Nat} {op : Opcode} {operands : List UInt8}
    (count : operands.length = op.operandCount) :
    text? ⟨a, op.byte :: operands, .instruction op⟩ =
      some (String.ofList (phrase op (List.zipWith OperandKind.write op.operandKinds operands))) := by
  cases op with
  | hlt | ret =>
    obtain rfl := List.eq_nil_of_length_eq_zero count
    simp [text?, phrase, Opcode.operandKinds]
  | ldi | alu op =>
    obtain ⟨r, v, rfl⟩ := List.length_eq_two.1 count
    simp [text?, phrase, Opcode.operandKinds, OperandKind.write, register, Text.decimal,
      ← String.toList_inj]
  | _ =>
    obtain ⟨r, rfl⟩ := List.length_eq_one_iff.1 count
    simp [text?, phrase, Opcode.operandKinds, OperandKind.write, register, Text.decimal,
      ← String.toList_inj]

theorem operands?_zipWith_write {kinds : List OperandKind} {operands : List UInt8}
    (count : operands.length = kinds.length) :
    operands? kinds (List.zipWith OperandKind.write kinds operands) = some operands := by
  induction kinds generalizing operands with
  | nil =>
    obtain rfl := List.eq_nil_of_length_eq_zero count
    rfl
  | cons kind kinds ih =>
    cases operands with
    | nil => simp at count
    | cons b operands => simp [operands?, ih (Nat.succ.inj count)]

theorem assemble?_phrase (op : Opcode) {fields : List (List Char)}
    (comma : ∀ field ∈ fields, ',' ∉ field) :
    assemble? (phrase op fields) = (operands? op.operandKinds fields).map (op.byte :: ·) := by
  have letters := List.all_eq_true.1 op.letters_mnemonic
  have blank : ' ' ∉ op.mnemonic.toList := fun h => absurd (letters ' ' h) (by decide)
  have name : op.mnemonic.toList ≠ ['.', 'b', 'y', 't', 'e'] := by
    intro same
    rw [same] at letters
    exact absurd (letters '.' (by decide)) (by decide)
  have first (rest : List Char) := takeWhile_ne_append blank rest
  cases fields with
  | nil =>
    have alone := first []
    rw [List.append_nil, List.takeWhile_nil, List.append_nil] at alone
    simp [assemble?, phrase, alone, name, instruction?]
  | cons field fields =>
    have split := List.splitOn_intercalate ',' comma (List.cons_ne_nil _ _)
    simp [assemble?, phrase, first, name, split, instruction?]

theorem text?_data (a : Nat) (b : UInt8) :
    text? ⟨a, [b], .data⟩ =
      some (String.ofList (".byte 0b".toList ++ Text.digits 2 8 b.toNat)) := by
  simp [text?, Text.binary, ← String.toList_inj]

theorem assemble?_data (b : UInt8) :
    assemble? (".byte 0b".toList ++ Text.digits 2 8 b.toNat) = some [b] := by
  have comma : ',' ∉ Text.digits 2 8 b.toNat :=
    Text.not_mem_digits (by decide) (by decide) 8 b.toNat (by decide)
  have one : ('0' :: 'b' :: Text.digits 2 8 b.toNat).splitOn ',' =
      ['0' :: 'b' :: Text.digits 2 8 b.toNat] :=
    List.splitOn_eq_singleton (by simpa using comma)
  have eight : (Text.digits 2 8 b.toNat).length = 8 :=
    Text.length_digits (by decide) (by decide) b.toNat_lt
  simp [assemble?, one, datum?, eight, Text.byteNumeral?_digits]

inductive Swept : Line → Prop where
  | instruction (a : Nat) {op : Opcode} {operands : List UInt8}
      (count : operands.length = op.operandCount) :
      Swept ⟨a, op.byte :: operands, .instruction op⟩
  | data (a : Nat) (b : UInt8) : Swept ⟨a, [b], .data⟩

theorem swept_read (a : Nat) (b : UInt8) (rest : List UInt8) : (Line.read a b rest).Swept := by
  obtain ⟨op, decode, room, h⟩ | ⟨-, h⟩ := Line.read_cases a b rest
  · rw [h, ← Opcode.byte_eq_of_decode decode]
    exact .instruction a (List.length_take_of_le room)
  · rw [h]
    exact .data a b

theorem swept_of_mem {program : List UInt8} {l : Line} (h : l ∈ ofProgram program) : l.Swept := by
  obtain ⟨before, after, cut⟩ := List.append_of_mem h
  obtain ⟨b, rest, -, rfl, -⟩ := sweep_eq_append_cons cut
  exact swept_read _ b rest

theorem Swept.nonempty {l : Line} (h : l.Swept) : l.bytes ≠ [] := by
  cases h <;> simp

theorem Swept.length_le {l : Line} (h : l.Swept) : l.bytes.length ≤ 3 := by
  cases h with
  | @instruction a op operands count =>
    have wide := op.width_le
    simp only [Opcode.width, List.length_cons] at wide ⊢
    omega
  | data a b => simp

theorem Swept.exists_text {l : Line} (h : l.Swept) :
    ∃ text, l.text? = some (String.ofList text) ∧ assemble? text = some l.bytes := by
  cases h with
  | @instruction a op operands count =>
    refine ⟨_, text?_instruction count, ?_⟩
    rw [← op.length_operandKinds] at count
    rw [assemble?_phrase op, operands?_zipWith_write count]
    · rfl
    · intro field h
      rw [← List.map_uncurry_zip_eq_zipWith] at h
      obtain ⟨⟨kind, b⟩, -, rfl⟩ := List.mem_map.1 h
      exact kind.not_mem_write b
  | data a b => exact ⟨_, text?_data a b, assemble?_data b⟩

/-- A printed line tells where the line stands and, in either column, its bytes. -/
structure Tells (s : String) (l : Line) : Prop where
  address : (Columns.cut s).address? = some l.address
  raw : (Columns.cut s).raw? = some l.bytes
  assembled : (Columns.cut s).assembled? = some l.bytes
  text : l.text? = some (String.ofList (Columns.cut s).text)
  front : l.address < 256 →
    ∃ front, front.length = 15 ∧ s.toList = front ++ (Columns.cut s).text

theorem Swept.tells_printed {l : Line} {text : List Char} (h : l.Swept)
    (written : l.text? = some (String.ofList text)) (assembled : assemble? text = some l.bytes) :
    Tells (String.ofList (l.printed text)) l := by
  have colon : ':' ∉ Text.digits 16 2 l.address :=
    Text.not_mem_digits (by decide) (by decide) 2 l.address (by decide)
  have width := length_hexColumn h.nonempty h.length_le
  have cut : Columns.cut (String.ofList (l.printed text)) =
      ⟨Text.digits 16 2 l.address, l.hexColumn, text⟩ := Columns.cut_ofList colon width
  constructor
  case address =>
    rw [cut]
    exact Text.numeral?_digits (by decide) (by decide) 2 l.address
  case raw =>
    rw [cut, Columns.raw?, words_hexColumn h.nonempty]
    exact mapM_hexWords l
  case assembled => rwa [cut]
  case text => rwa [cut]
  case front =>
    intro near
    have two : (Text.digits 16 2 l.address).length = 2 :=
      Text.length_digits (by decide) (by decide) near
    refine ⟨Text.digits 16 2 l.address ++ ':' :: ' ' :: ' ' :: (l.hexColumn ++ [' ', ' ']), ?_, ?_⟩
    · simp [two, width]
    · rw [cut]
      simp [printed]

end Line

theorem readBack_eq_some {read? : Columns → Option (List UInt8)} {printed : List String}
    {lines : List Line}
    (h : List.Forall₂ (fun s l => read? (Columns.cut s) = some l.bytes) printed lines) :
    readBack read? printed = some (lines.flatMap (·.bytes)) := by
  induction h with
  | nil => rfl
  | cons here _ ih => simp [readBack, here, ih]

theorem exists_printed {lines : List Line} (h : ∀ l ∈ lines, l.Swept) :
    ∃ printed : List String, lines.map (·.render?) = printed.map some ∧
      List.Forall₂ Line.Tells printed lines := by
  induction lines with
  | nil => exact ⟨[], rfl, .nil⟩
  | cons l lines ih =>
    obtain ⟨here, later⟩ := List.forall_mem_cons.1 h
    obtain ⟨text, written, assembled⟩ := here.exists_text
    obtain ⟨printed, all, told⟩ := ih later
    exact ⟨_ :: printed, by simp [Line.render?_of_text written, all],
      .cons (here.tells_printed written assembled) told⟩

theorem exists_of_forall₂_append_cons {α β : Type} {R : α → β → Prop} {xs ys : List α} {x : α}
    {zs : List β} (h : List.Forall₂ R (xs ++ x :: ys) zs) :
    ∃ us u vs, zs = us ++ u :: vs ∧ List.Forall₂ R xs us ∧ R x u := by
  induction xs generalizing zs with
  | nil =>
    obtain ⟨u, vs, here, -, rfl⟩ := List.forall₂_cons_left_iff.1 h
    exact ⟨[], u, vs, rfl, .nil, here⟩
  | cons w xs ih =>
    obtain ⟨u, vs, here, later, rfl⟩ := List.forall₂_cons_left_iff.1 h
    obtain ⟨us, v, vs, rfl, all, last⟩ := ih later
    exact ⟨u :: us, v, vs, rfl, .cons here all, last⟩

theorem exists_readBack (program : List UInt8) :
    ∃ printed : List String, (ofProgram program).map (·.render?) = printed.map some ∧
      List.Forall₂ Line.Tells printed (ofProgram program) ∧
      readBack Columns.raw? printed = some program ∧
      readBack Columns.assembled? printed = some program := by
  obtain ⟨printed, rendered, told⟩ :=
    exists_printed fun l (hl : l ∈ ofProgram program) => Line.swept_of_mem hl
  have byRaw := readBack_eq_some (told.imp fun _ _ tells => tells.raw)
  have byText := readBack_eq_some (told.imp fun _ _ tells => tells.assembled)
  rw [(tiles_ofProgram program).bytes] at byRaw byText
  exact ⟨printed, rendered, told, byRaw, byText⟩

/-- Every line of a listing is printed. The printed lines tell where they stand and, in two ways,
what the program is. Up to 256 bytes, the text begins in the same place on each. -/
theorem printed_listing_reads_back (program : List UInt8) :
    ∃ printed : List String,
      (ofProgram program).map (·.render?) = printed.map some ∧
        List.Forall₂ Line.Tells printed (ofProgram program) ∧
        readBack Columns.raw? printed = some program ∧
        readBack Columns.assembled? printed = some program ∧
        (∀ before s after, printed = before ++ s :: after →
          ∃ front, readBack Columns.raw? before = some front ∧
            (Columns.cut s).address? = some front.length) ∧
        (program.length ≤ 256 → ∀ s ∈ printed,
          ∃ front, front.length = 15 ∧ s.toList = front ++ (Columns.cut s).text) ∧
        ∀ other, (ofProgram other).map (·.render?) = (ofProgram program).map (·.render?) →
          other = program := by
  obtain ⟨printed, rendered, told, byRaw, byText⟩ := exists_readBack program
  have tiles := tiles_ofProgram program
  refine ⟨printed, rendered, told, byRaw, byText, ?_, ?_, ?_⟩
  · rintro before s after rfl
    obtain ⟨lines, l, rest, cut, earlier, tells⟩ := exists_of_forall₂_append_cons told
    refine ⟨_, readBack_eq_some (earlier.imp fun _ _ tells => tells.raw), ?_⟩
    rw [tells.address, tiles.address lines l rest cut, sum_map_length]
  · intro small s hs
    obtain ⟨before, after, rfl⟩ := List.append_of_mem hs
    obtain ⟨lines, l, rest, cut, -, tells⟩ := exists_of_forall₂_append_cons told
    have inside := (tiles.shows l (by simp [cut])).inside
    exact tells.front (by omega)
  · intro other same
    obtain ⟨others, otherRendered, -, otherRaw, -⟩ := exists_readBack other
    rw [rendered, otherRendered] at same
    have equal := (List.map_inj_right fun _ _ => Option.some.inj).1 same
    rw [equal, byRaw] at otherRaw
    exact (Option.some.inj otherRaw).symm

def loadThenData : List UInt8 := [Opcode.ldi.byte, 9, 8, 0xFF]

def loadLine : String := "00:  82 09 08  LDI R9,8"

def dataLine : String := "03:  ff        .byte 0b11111111"

theorem loadThenData_reads_back :
    readBack Columns.raw? [loadLine, dataLine] = some loadThenData ∧
      readBack Columns.assembled? [loadLine, dataLine] = some loadThenData ∧
      (∃ front, readBack Columns.raw? [loadLine] = some front ∧
        (Columns.cut dataLine).address? = some front.length) ∧
      (∀ s ∈ [loadLine, dataLine],
        ∃ front, front.length = 15 ∧ s.toList = front ++ (Columns.cut s).text) ∧
      [0x82, 9, 8, 0xFF] = loadThenData := by
  obtain ⟨printed, rendered, -, byRaw, byText, places, aligned, injective⟩ :=
    printed_listing_reads_back loadThenData
  have lines : (ofProgram loadThenData).map (·.render?) = [loadLine, dataLine].map some := by
    decide +kernel
  obtain rfl : [loadLine, dataLine] = printed :=
    (List.map_inj_right fun _ _ => Option.some.inj).1 (lines.symm.trans rendered)
  exact ⟨byRaw, byText, places [loadLine] dataLine [] rfl, aligned (by decide),
    injective [0x82, 9, 8, 0xFF] rfl⟩

end Listing
end ByteCpu
