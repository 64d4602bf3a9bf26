import ByteCpu.Proofs.Machine.Writes
import ByteCpu.Proofs.Program.Concatenation
import ByteCpu.Proofs.Text.Numerals

/-!
Ways to write a program as text. However its bytes are spelled, among whatever blanks and comments,
parsing gives them back, and a machine takes what parsing accepts.
-/

set_option autoImplicit false

namespace ByteCpu

namespace Machine

structure Starts (m : Machine) (program : List UInt8) : Prop where
  memory : m.memory.toList = program ++ List.replicate (256 - program.length) 0
  registers : m.registers.toList = [0, 0, 0, 0, 0, 0, 0, 0xF4]
  pc : m.pc = 0
  flags : m.flags = none
  state : m.state = .running
  steps : m.steps = 0
  limit : m.limit = none

theorem starts_loaded {program : List UInt8} (fits : program.length ≤ 256) :
    (loaded program).Starts program where
  memory := toList_loaded fits
  registers := by rfl
  pc := rfl
  flags := rfl
  state := rfl
  steps := rfl
  limit := rfl

theorem withProgram_of_exceeds {program : List UInt8} (exceeds : 256 < program.length) :
    withProgram program = .error (.memoryOutOfRange 256) := by
  simp [withProgram, Memory.load, Nat.not_le.2 exceeds, Except.map]

end Machine

namespace Source

def Blanks (cs : List Char) : Prop := ∀ c ∈ cs, Text.isBlank c = true ∧ c ≠ '\n'

/-- Nothing, or a number sign with any text behind it on the line. -/
def Comment (cs : List Char) : Prop := cs = [] ∨ ∃ text, cs = '#' :: text ∧ '\n' ∉ text

/-- A line that spells a byte or none. The numeral may have any number of leading zeros. -/
inductive LineSpells : List Char → Option UInt8 → Prop
  | byte {front numeral back comment : List Char} {b : UInt8} (blankFront : Blanks front)
      (denotes : Denotes numeral b) (blankBack : Blanks back) (ends : Comment comment) :
      LineSpells (front ++ numeral ++ back ++ comment) (some b)
  | nothing {blanks comment : List Char} (blank : Blanks blanks) (ends : Comment comment) :
      LineSpells (blanks ++ comment) none

/-- A text that spells bytes, each on a line of its own. A line ends in a line feed, with or without
a carriage return; the last line need not. -/
inductive Spells : List Char → List UInt8 → Prop
  | last {l : List Char} {b : Option UInt8} (line : LineSpells l b) : Spells l b.toList
  | line {l feed rest : List Char} {b : Option UInt8} {bytes : List UInt8} (line : LineSpells l b)
      (ends : feed = ['\n'] ∨ feed = ['\r', '\n']) (later : Spells rest bytes) :
      Spells (l ++ feed ++ rest) (b.toList ++ bytes)

theorem Comment.sign {cs : List Char} (h : Comment cs) : ∀ c ∈ cs.head?, c = '#' := by
  obtain rfl | ⟨text, rfl, -⟩ := h <;> simp

theorem Comment.feedless {cs : List Char} (h : Comment cs) : '\n' ∉ cs := by
  obtain rfl | ⟨text, rfl, free⟩ := h
  · exact List.not_mem_nil
  · simp [free]

theorem Blanks.feedless {cs : List Char} (h : Blanks cs) : '\n' ∉ cs := fun mem => (h _ mem).2 rfl

theorem Denotes.not_mem {t : List Char} {b : UInt8} (h : Denotes t b) {c : Char} (zero : c ≠ '0')
    (one : c ≠ '1') : c ∉ t := by
  intro mem
  obtain same | same := h.2.1 c mem
  · exact zero same
  · exact one same

theorem Denotes.tight {t : List Char} {b : UInt8} (h : Denotes t b) : Text.Tight t := by
  have bit : ∀ c ∈ t, Text.isBlank c = false := by
    intro c mem
    obtain rfl | rfl := h.2.1 c mem <;> decide
  exact ⟨fun c hc => bit c (List.mem_of_mem_head? hc), fun c hc => bit c (List.mem_of_getLast? hc)⟩

namespace LineSpells

variable {l : List Char} {b : Option UInt8}

theorem feedless (h : LineSpells l b) : '\n' ∉ l := by
  cases h with
  | byte blankFront denotes blankBack ends =>
    have numeral := denotes.not_mem (c := '\n') (by decide) (by decide)
    simp [blankFront.feedless, numeral, blankBack.feedless, ends.feedless]
  | nothing blank ends => simp [blank.feedless, ends.feedless]

theorem carriageReturn (h : LineSpells l b) : LineSpells (l ++ ['\r']) b := by
  have blank : Blanks ['\r'] := by
    intro c hc
    rw [List.mem_singleton.1 hc]
    decide
  cases h with
  | byte blankFront denotes blankBack ends =>
    obtain rfl | ⟨text, rfl, free⟩ := ends
    · have longer := LineSpells.byte blankFront denotes
        (List.forall_mem_append.2 ⟨blankBack, blank⟩) (.inl rfl)
      simpa using longer
    · have longer := LineSpells.byte blankFront denotes blankBack
        (.inr ⟨text ++ ['\r'], rfl, by simp [free]⟩)
      simpa using longer
  | nothing blanks ends =>
    obtain rfl | ⟨text, rfl, free⟩ := ends
    · have longer := LineSpells.nothing (List.forall_mem_append.2 ⟨blanks, blank⟩) (.inl rfl)
      simpa using longer
    · have longer := LineSpells.nothing blanks (.inr ⟨text ++ ['\r'], rfl, by simp [free]⟩)
      simpa using longer

theorem is_read (h : LineSpells l b) : wellFormed l = true ∧ lineByte? l = b := by
  cases h with
  | byte blankFront denotes blankBack ends =>
    have bare := denotes.not_mem (c := '#') (by decide) (by decide)
    have token := reads_iff.1 (.line (fun c hc => (blankFront c hc).1) bare denotes.tight
      (fun c hc => (blankBack c hc).1) ends.sign)
    rw [wellFormed_iff, lineByte?_eq_some_iff, token]
    exact ⟨.inr ⟨_, denotes⟩, denotes⟩
  | @nothing blanks comment blank ends =>
    have reads : Reads (blanks ++ [] ++ [] ++ comment) [] :=
      .line (fun c hc => (blank c hc).1) (by simp) (by simp [Text.Tight]) (by simp) ends.sign
    simp only [List.append_nil] at reads
    have token := reads_iff.1 reads
    exact ⟨wellFormed_iff.2 (.inl token), lineByte?_of_token_eq_nil token⟩

end LineSpells

theorem lineSpells_of_wellFormed {l : List Char} (feedless : '\n' ∉ l) (h : wellFormed l = true) :
    LineSpells l (lineByte? l) := by
  obtain ⟨back, comment, parts, blank, sign⟩ := exists_parts l
  rw [parts] at feedless
  simp only [List.mem_append, not_or] at feedless
  obtain ⟨⟨⟨feedlessFront, -⟩, feedlessBack⟩, feedlessEnd⟩ := feedless
  have blankFront : Blanks (indent l) :=
    fun c hc => ⟨isBlank_of_mem_indent l c hc, fun feed => feedlessFront (feed ▸ hc)⟩
  have blankBack : Blanks back := fun c hc => ⟨blank c hc, fun feed => feedlessBack (feed ▸ hc)⟩
  have ends : Comment comment := by
    cases comment with
    | nil => exact .inl rfl
    | cons c text =>
      obtain rfl := sign c rfl
      exact .inr ⟨text, rfl, fun feed => feedlessEnd (List.mem_cons_of_mem _ feed)⟩
  obtain none | ⟨b, denotes⟩ := wellFormed_iff.1 h
  · have spells := LineSpells.nothing (List.forall_mem_append.2 ⟨blankFront, blankBack⟩) ends
    rw [lineByte?_of_token_eq_nil none]
    rw [none, List.append_nil] at parts
    rwa [← parts] at spells
  · have spells := LineSpells.byte blankFront denotes blankBack ends
    rw [lineByte?_eq_some_iff.2 denotes]
    rwa [← parts] at spells

theorem lines_of_feedless {l : List Char} (feedless : '\n' ∉ l) : lines l = [l] :=
  lines_eq_iff.2 ⟨List.cons_ne_nil l [], by simpa using feedless, by simp⟩

theorem lines_cons {l : List Char} (feedless : '\n' ∉ l) (rest : List Char) :
    lines (l ++ ['\n'] ++ rest) = l :: lines rest := by
  have free : ∀ k ∈ [l], '\n' ∉ k := by simpa using feedless
  have cut := lines_ended_append free rest
  simpa [ended] using cut

theorem filterMap_lineByte?_cons (l : List Char) (ls : List (List Char)) :
    (l :: ls).filterMap lineByte? = (lineByte? l).toList ++ ls.filterMap lineByte? := by
  rw [List.filterMap_eq_flatMap_toList, List.filterMap_eq_flatMap_toList, List.flatMap_cons]

theorem Spells.is_read {cs : List Char} {bytes : List UInt8} (h : Spells cs bytes) :
    (∀ l ∈ lines cs, wellFormed l = true) ∧ (lines cs).filterMap lineByte? = bytes := by
  induction h with
  | @last l b line =>
    obtain ⟨good, byte⟩ := line.is_read
    rw [lines_of_feedless line.feedless, filterMap_lineByte?_cons, byte]
    simpa using good
  | @line l feed rest b bytes line ends _ ih =>
    obtain ⟨l', line', cut⟩ : ∃ l', LineSpells l' b ∧ l ++ feed = l' ++ ['\n'] := by
      obtain rfl | rfl := ends
      · exact ⟨l, line, rfl⟩
      · exact ⟨l ++ ['\r'], line.carriageReturn, by simp⟩
    obtain ⟨good, byte⟩ := line'.is_read
    obtain ⟨allGood, others⟩ := ih
    rw [cut, lines_cons line'.feedless, filterMap_lineByte?_cons, byte, others]
    exact ⟨List.forall_mem_cons.2 ⟨good, allGood⟩, rfl⟩

theorem spells_intercalate {l : List Char} {ls : List (List Char)}
    (free : ∀ k ∈ l :: ls, '\n' ∉ k) (good : ∀ k ∈ l :: ls, wellFormed k = true) :
    Spells (['\n'].intercalate (l :: ls)) ((l :: ls).filterMap lineByte?) := by
  induction ls generalizing l with
  | nil =>
    have line := lineSpells_of_wellFormed (free l (by simp)) (good l (by simp))
    rw [List.intercalate_singleton, filterMap_lineByte?_cons, List.filterMap_nil, List.append_nil]
    exact .last line
  | cons k ls ih =>
    obtain ⟨feedless, laterFree⟩ := List.forall_mem_cons.1 free
    obtain ⟨here, laterGood⟩ := List.forall_mem_cons.1 good
    rw [List.intercalate_cons_of_ne_nil (List.cons_ne_nil k ls), filterMap_lineByte?_cons]
    exact .line (lineSpells_of_wellFormed feedless here) (.inl rfl) (ih laterFree laterGood)

theorem spells_iff {cs : List Char} {bytes : List UInt8} :
    Spells cs bytes ↔
      (∀ l ∈ lines cs, wellFormed l = true) ∧ (lines cs).filterMap lineByte? = bytes := by
  constructor
  · exact Spells.is_read
  · rintro ⟨good, rfl⟩
    obtain ⟨nonempty, free, text⟩ := lines_eq_iff.1 (rfl : lines cs = _)
    obtain ⟨l, ls, cut⟩ := List.exists_cons_of_ne_nil nonempty
    rw [cut] at good free text ⊢
    rw [text]
    exact spells_intercalate free good

theorem readOn?_bits {cs : List Char} (bits : ∀ c ∈ cs, c = '0' ∨ c = '1') (n : Nat) :
    Text.readOn? 2 n cs = some (cs.foldl (fun n c => 2 * n + if c == '1' then 1 else 0) n) := by
  induction cs generalizing n with
  | nil => rfl
  | cons c cs ih =>
    obtain ⟨here, later⟩ := List.forall_mem_cons.1 bits
    rw [List.foldl_cons, ← ih later]
    obtain rfl | rfl := here <;> rfl

theorem denotes_digits (width : Nat) (b : UInt8) : Denotes (Text.digits 2 width b.toNat) b := by
  have bits : ∀ c ∈ Text.digits 2 width b.toNat, c = '0' ∨ c = '1' :=
    Text.forall_mem_digits (by decide) (by decide) width b.toNat
  have nonempty : Text.digits 2 width b.toNat ≠ [] := by simp [Text.digits]
  have reads : Text.numeral? 2 (Text.digits 2 width b.toNat) = some b.toNat :=
    Text.numeral?_digits (by decide) (by decide) width b.toNat
  rw [Text.numeral?, List.isEmpty_eq_false_iff.2 nonempty, if_neg Bool.false_ne_true,
    readOn?_bits bits] at reads
  exact ⟨nonempty, bits, (bitsValue_eq _).symm.trans (Option.some.inj reads)⟩

def plain (bytes : List UInt8) : List Char :=
  bytes.flatMap fun b => Text.digits 2 8 b.toNat ++ ['\n']

theorem spells_plain (bytes : List UInt8) : Spells (plain bytes) bytes := by
  have empty : Blanks [] := by simp [Blanks]
  induction bytes with
  | nil =>
    have line : LineSpells ([] ++ []) none := .nothing empty (.inl rfl)
    exact .last line
  | cons b bytes ih =>
    have line : LineSpells ([] ++ Text.digits 2 8 b.toNat ++ [] ++ []) (some b) :=
      .byte empty (denotes_digits 8 b) empty (.inl rfl)
    simp only [List.nil_append, List.append_nil] at line
    exact .line line (.inl rfl) ih

/-- Parsing gives back the bytes that a text spells, unless they are more than memory has cells. It
accepts no other text, and a machine takes all that it accepts. -/
theorem parse_undoes_spelling (name source : String) (program : List UInt8) :
    (Spells source.toList program → program.length ≤ 256 → parse name source = .ok program) ∧
    (Spells source.toList program → 256 < program.length →
      parse name source = .error (.programTooLarge program.length 256) ∧
      Machine.withProgram program = .error (.memoryOutOfRange 256)) ∧
    (parse name source = .ok program →
      Spells source.toList program ∧
      ∃ m, Machine.withProgram program = .ok m ∧ m.Starts program) := by
  have count : Memory.size = 256 := rfl
  refine ⟨fun spells fits => ?_, fun spells exceeds => ⟨?_, ?_⟩, fun accepted => ?_⟩
  · obtain ⟨good, bytes⟩ := spells_iff.1 spells
    rw [parse_of_wellFormed name good, bytes, count, if_pos fits]
  · obtain ⟨good, bytes⟩ := spells_iff.1 spells
    rw [parse_of_wellFormed name good, bytes, count, if_neg (Nat.not_le.2 exceeds)]
  · exact Machine.withProgram_of_exceeds exceeds
  · obtain all | ⟨good, line, rest, cut, allBefore, illFormed⟩ :=
      wellFormed_or_bad (lines source.toList)
    · rw [parse_of_wellFormed name all] at accepted
      split at accepted
      next fits =>
        cases accepted
        exact ⟨spells_iff.2 ⟨all, rfl⟩, _, Machine.withProgram_eq_ok_iff.2 ⟨fits, rfl⟩,
          Machine.starts_loaded fits⟩
      next => cases accepted
    · rw [parse_of_bad name cut allBefore illFormed] at accepted
      cases accepted

/-- A line that spells five with zeros in front, blanks of several kinds and a comment, one that
spells nothing, and one that is not ended. -/
def fiveText : String := "\u00a0 0000000101\t#é\r\n \r\n11111111\r"

theorem fiveText_spelling_undone :
    Spells fiveText.toList [5, 255] ∧ parse "five" fiveText = .ok [5, 255] ∧
      (∃ m, Machine.withProgram [5, 255] = .ok m ∧ m.Starts [5, 255]) ∧
      Spells (plain (List.replicate 257 1)) (List.replicate 257 1) ∧
      parse "long" (String.ofList (plain (List.replicate 257 1))) =
        .error (.programTooLarge 257 256) ∧
      Machine.withProgram (List.replicate 257 1) = .error (.memoryOutOfRange 256) := by
  have five : LineSpells ("\u00a0 ".toList ++ "0000000101".toList ++ "\t".toList ++ "#é".toList)
      (some 5) :=
    .byte (by simp [Blanks]; decide) ⟨by decide, by simp, by decide⟩ (by simp [Blanks]; decide)
      (.inr ⟨"é".toList, rfl, by decide⟩)
  have nothing : LineSpells (" ".toList ++ []) none :=
    .nothing (by simp [Blanks]; decide) (.inl rfl)
  have last : LineSpells ([] ++ "11111111".toList ++ "\r".toList ++ []) (some 255) :=
    .byte (by simp [Blanks]) ⟨by decide, by simp, by decide⟩ (by simp [Blanks]; decide) (.inl rfl)
  have spells : Spells fiveText.toList [5, 255] :=
    .line five (.inr rfl) (.line nothing (.inr rfl) (.last last))
  obtain ⟨accepts, -, loads⟩ := parse_undoes_spelling "five" fiveText [5, 255]
  have accepted := accepts spells (by decide)
  have long := spells_plain (List.replicate 257 1)
  have exceeds : 256 < (List.replicate 257 (1 : UInt8)).length := by
    rw [List.length_replicate]
    decide
  obtain ⟨-, refuses, -⟩ := parse_undoes_spelling "long"
    (String.ofList (plain (List.replicate 257 1))) (List.replicate 257 1)
  rw [String.toList_ofList] at refuses
  obtain ⟨refused, unloaded⟩ := refuses long exceeds
  rw [List.length_replicate] at refused
  exact ⟨spells, accepted, (loads accepted).2, long, refused, unloaded⟩

end Source
end ByteCpu
