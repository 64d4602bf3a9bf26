import ByteCpu.Text.Utf8
import Mathlib

/-!
Decoding UTF-8. The bytes that decode to characters are those that encode them, and every other
sequence of bytes is refused. A character after the first 128 is a lead byte, which tells how many
bytes are missing, and bytes that carry six bits each; the lead bytes and the ranges of the bytes
behind them leave each number one form.
-/

set_option autoImplicit false

namespace ByteCpu.Text.Utf8

open String (utf8EncodeChar)

def encode (cs : List Char) : List UInt8 := cs.flatMap utf8EncodeChar

/-- What is read from a character that may be unfinished, and nothing done before. -/
def resume (u : Option Unfinished) (bytes : List UInt8) : List (Option Char) :=
  (bytes.foldl Scan.push ⟨[], u⟩).finish

/-- The bytes complete the unfinished character to that number. -/
inductive Completes : Unfinished → List UInt8 → Nat → Prop
  | last {u : Unfinished} {b : UInt8} (range : u.low ≤ b ∧ b ≤ u.high) (one : u.missing ≤ 1) :
      Completes u [b] (u.bits * 64 + (b.toNat - 0x80))
  | more {u : Unfinished} {b : UInt8} {bs : List UInt8} {n : Nat}
      (range : u.low ≤ b ∧ b ≤ u.high) (many : 1 < u.missing)
      (later : Completes ⟨u.bits * 64 + (b.toNat - 0x80), u.missing - 1, 0x80, 0xBF⟩ bs n) :
      Completes u (b :: bs) n

theorem push_done (s : Scan) (b : UInt8) :
    s.push b = ⟨(Scan.push ⟨[], s.unfinished⟩ b).done ++ s.done,
      (Scan.push ⟨[], s.unfinished⟩ b).unfinished⟩ := by
  obtain ⟨done, unfinished⟩ := s
  unfold Scan.push Scan.start
  cases unfinished with
  | none => cases lead b <;> rfl
  | some u =>
    dsimp only
    split
    · split <;> rfl
    · cases lead b <;> rfl

theorem finish_foldl_push (s : Scan) (bytes : List UInt8) :
    (bytes.foldl Scan.push s).finish = s.done.reverse ++ resume s.unfinished bytes := by
  induction bytes generalizing s with
  | nil =>
    obtain ⟨done, unfinished⟩ := s
    cases unfinished <;> simp [resume, Scan.finish]
  | cons b bytes ih =>
    have first := ih (Scan.push ⟨[], s.unfinished⟩ b)
    change _ = s.done.reverse ++ (bytes.foldl Scan.push (Scan.push ⟨[], s.unfinished⟩ b)).finish
    rw [List.foldl_cons, ih, first, push_done s b]
    simp

theorem resume_cons (u : Option Unfinished) (b : UInt8) (bytes : List UInt8) :
    resume u (b :: bytes) =
      (Scan.push ⟨[], u⟩ b).done.reverse ++ resume (Scan.push ⟨[], u⟩ b).unfinished bytes := by
  rw [← finish_foldl_push]
  rfl

theorem resume_lead (b : UInt8) (bytes : List UInt8) :
    resume none (b :: bytes) =
      match lead b with
      | .char c => some c :: resume none bytes
      | .start u => resume (some u) bytes
      | .invalid => none :: resume none bytes := by
  rw [resume_cons]
  simp only [Scan.push, Scan.start]
  cases lead b <;> rfl

theorem resume_unfinished (u : Unfinished) (b : UInt8) (bytes : List UInt8) :
    resume (some u) (b :: bytes) =
      if u.low ≤ b ∧ b ≤ u.high then
        let bits := u.bits * 64 + (b.toNat - 0x80)
        if u.missing ≤ 1 then some (Char.ofNat bits) :: resume none bytes
        else resume (some ⟨bits, u.missing - 1, 0x80, 0xBF⟩) bytes
      else none :: resume none (b :: bytes) := by
  rw [resume_cons]
  simp only [Scan.push, Bool.and_eq_true, decide_eq_true_eq]
  by_cases range : u.low ≤ b ∧ b ≤ u.high
  · rw [if_pos range, if_pos range]
    split <;> rfl
  · rw [if_neg range, if_neg range, resume_cons]
    simp only [Scan.push, Scan.start]
    cases lead b <;> rfl

theorem resume_of_completes {u : Unfinished} {bytes : List UInt8} {n : Nat}
    (h : Completes u bytes n) (rest : List UInt8) :
    resume (some u) (bytes ++ rest) = some (Char.ofNat n) :: resume none rest := by
  induction h with
  | last range one =>
    rw [List.singleton_append, resume_unfinished, if_pos range]
    simp only [if_pos one]
  | more range many _ ih =>
    rw [List.cons_append, resume_unfinished, if_pos range]
    simp only [if_neg (Nat.not_le.2 many), ih]

theorem exists_completes {u : Unfinished} {bytes : List UInt8} {c : Char} {os : List (Option Char)}
    (h : resume (some u) bytes = some c :: os) :
    ∃ tail n rest, bytes = tail ++ rest ∧ Completes u tail n ∧ c = Char.ofNat n ∧
      resume none rest = os := by
  induction bytes generalizing u with
  | nil => cases h
  | cons b bytes ih =>
    rw [resume_unfinished] at h
    split at h
    next range =>
      dsimp only at h
      split at h
      next one =>
        obtain ⟨char, later⟩ := List.cons.inj h
        exact ⟨[b], _, bytes, rfl, .last range one, (Option.some.inj char).symm, later⟩
      next many =>
        obtain ⟨tail, n, rest, rfl, completes, char, later⟩ := ih h
        exact ⟨b :: tail, n, rest, rfl, .more range (Nat.not_le.1 many) completes, char, later⟩
    next => cases h

theorem completes_one_iff {bits n : Nat} {low high : UInt8} {tail : List UInt8} :
    Completes ⟨bits, 1, low, high⟩ tail n ↔
      ∃ b, tail = [b] ∧ (low ≤ b ∧ b ≤ high) ∧ n = bits * 64 + (b.toNat - 0x80) := by
  constructor
  · rintro (⟨range, -⟩ | ⟨-, many, -⟩)
    · exact ⟨_, rfl, range, rfl⟩
    · exact absurd many (by simp)
  · rintro ⟨b, rfl, range, number⟩
    rw [number]
    exact .last range (by simp)

theorem completes_succ_iff {bits k n : Nat} {low high : UInt8} {tail : List UInt8} :
    Completes ⟨bits, k + 2, low, high⟩ tail n ↔
      ∃ b bs, tail = b :: bs ∧ (low ≤ b ∧ b ≤ high) ∧
        Completes ⟨bits * 64 + (b.toNat - 0x80), k + 1, 0x80, 0xBF⟩ bs n := by
  constructor
  · rintro (⟨-, one⟩ | ⟨range, -, later⟩)
    · exact absurd one (by simp)
    · exact ⟨_, _, rfl, range, later⟩
  · rintro ⟨b, bs, rfl, range, later⟩
    exact .more range (by simp) later

/-- The byte that carries the bits of `n` at place `k`, six bits a place. -/
def sextet (k n : Nat) : UInt8 := UInt8.ofNat (n / 64 ^ k % 64 + 0x80)

def sextets : Nat → Nat → List UInt8
  | 0, _ => []
  | k + 1, n => sextet k n :: sextets k n

theorem toNat_sextet (k n : Nat) : (sextet k n).toNat = n / 64 ^ k % 64 + 0x80 := by
  rw [sextet, UInt8.toNat_ofNat']
  omega

theorem eq_sextet_iff {k n : Nat} {b : UInt8} :
    b = sextet k n ↔ 0x80 ≤ b.toNat ∧ b.toNat - 0x80 = n / 64 ^ k % 64 := by
  rw [← UInt8.toNat_inj, toNat_sextet]
  omega

theorem toNat_of_range {low high b : UInt8} (atLeast : 0x80 ≤ low.toNat)
    (atMost : high.toNat ≤ 0xBF) (range : low ≤ b ∧ b ≤ high) :
    0x80 ≤ b.toNat ∧ b.toNat ≤ 0xBF := by
  have least := UInt8.le_iff_toNat_le.1 range.1
  have most := UInt8.le_iff_toNat_le.1 range.2
  omega

theorem sextet_range (k n : Nat) : 0x80 ≤ sextet k n ∧ sextet k n ≤ 0xBF := by
  rw [UInt8.le_iff_toNat_le, UInt8.le_iff_toNat_le, toNat_sextet]
  change 128 ≤ _ ∧ _ ≤ 191
  omega

/-- The bytes that complete a character to a number carry its last bits, and the bits before them
are those already read. -/
theorem completes_iff {bits k n : Nat} {low high : UInt8} {tail : List UInt8}
    (atLeast : 0x80 ≤ low.toNat) (atMost : high.toNat ≤ 0xBF) :
    Completes ⟨bits, k + 1, low, high⟩ tail n ↔
      n / 64 ^ (k + 1) = bits ∧ tail = sextets (k + 1) n ∧ low ≤ sextet k n ∧
        sextet k n ≤ high := by
  induction k generalizing bits low high tail with
  | zero =>
    rw [completes_one_iff]
    constructor
    · rintro ⟨b, rfl, range, number⟩
      have room := toNat_of_range atLeast atMost range
      have byte : b = sextet 0 n := eq_sextet_iff.2 (by simp; omega)
      subst byte
      exact ⟨by simp; omega, rfl, range⟩
    · rintro ⟨quotient, rfl, range⟩
      exact ⟨sextet 0 n, rfl, range, by rw [toNat_sextet]; simp at quotient ⊢; omega⟩
  | succ k ih =>
    have shift : n / 64 ^ (k + 1 + 1) = n / 64 ^ (k + 1) / 64 := by
      rw [pow_succ, Nat.div_div_eq_div_mul]
    rw [shift]
    rw [completes_succ_iff]
    constructor
    · rintro ⟨b, bs, rfl, range, later⟩
      have room := toNat_of_range atLeast atMost range
      obtain ⟨quotient, rfl, -⟩ := (ih (by decide) (by decide)).1 later
      have byte : b = sextet (k + 1) n := eq_sextet_iff.2 (by omega)
      subst byte
      exact ⟨by omega, rfl, range⟩
    · rintro ⟨quotient, rfl, range⟩
      have later := (ih (by decide) (by decide)).2 ⟨rfl, rfl, sextet_range k n⟩
      refine ⟨_, _, rfl, range, ?_⟩
      rw [toNat_sextet, ← quotient, Nat.add_sub_cancel, Nat.div_add_mod']
      exact later

theorem lead_one {a : UInt8} (h : a.toNat < 0x80) : lead a = .char (Char.ofNat a.toNat) := by
  simp only [lead, if_pos h]

theorem lead_two {a : UInt8} (h : 0xC2 ≤ a.toNat) (h' : a.toNat < 0xE0) :
    lead a = .start ⟨a.toNat - 0xC0, 1, 0x80, 0xBF⟩ := by
  simp only [lead]
  rw [if_neg (by omega), if_neg (by omega), if_pos h']

/-- The first of three bytes. After E0 the second byte is high, lest the form be overlong, and
after ED it is low, lest the number be a surrogate. -/
theorem lead_three {a : UInt8} (h : 0xE0 ≤ a.toNat) (h' : a.toNat < 0xF0) :
    ∃ low high : UInt8, lead a = .start ⟨a.toNat - 0xE0, 2, low, high⟩ ∧
      (a.toNat = 0xE0 ∧ low.toNat = 0xA0 ∨ a.toNat ≠ 0xE0 ∧ low.toNat = 0x80) ∧
      (a.toNat = 0xED ∧ high.toNat = 0x9F ∨ a.toNat ≠ 0xED ∧ high.toNat = 0xBF) := by
  simp only [lead]
  rw [if_neg (by omega), if_neg (by omega), if_neg (by omega)]
  by_cases first : a.toNat = 0xE0
  · rw [if_pos first, first]
    exact ⟨_, _, rfl, by decide, by decide⟩
  by_cases surrogate : a.toNat = 0xED
  · rw [if_neg first, if_pos surrogate, surrogate]
    exact ⟨_, _, rfl, by decide, by decide⟩
  · rw [if_neg first, if_neg surrogate, if_pos h']
    exact ⟨_, _, rfl, .inr ⟨first, rfl⟩, .inr ⟨surrogate, rfl⟩⟩

/-- The first of four bytes. After F0 the second byte is high, lest the form be overlong, and
after F4 it is low, lest the number pass the last. -/
theorem lead_four {a : UInt8} (h : 0xF0 ≤ a.toNat) (h' : a.toNat ≤ 0xF4) :
    ∃ low high : UInt8, lead a = .start ⟨a.toNat - 0xF0, 3, low, high⟩ ∧
      (a.toNat = 0xF0 ∧ low.toNat = 0x90 ∨ a.toNat ≠ 0xF0 ∧ low.toNat = 0x80) ∧
      (a.toNat = 0xF4 ∧ high.toNat = 0x8F ∨ a.toNat ≠ 0xF4 ∧ high.toNat = 0xBF) := by
  simp only [lead]
  rw [if_neg (by omega), if_neg (by omega), if_neg (by omega), if_neg (by omega),
    if_neg (by omega), if_neg (by omega)]
  by_cases first : a.toNat = 0xF0
  · rw [if_pos first, first]
    exact ⟨_, _, rfl, by decide, by decide⟩
  rw [if_neg first]
  by_cases last : a.toNat = 0xF4
  · rw [if_neg (by omega), if_pos last, last]
    exact ⟨_, _, rfl, by decide, by decide⟩
  · rw [if_pos (by omega)]
    exact ⟨_, _, rfl, .inr ⟨first, rfl⟩, .inr ⟨last, rfl⟩⟩

theorem lead_cases (a : UInt8) :
    a.toNat < 0x80 ∧ lead a = .char (Char.ofNat a.toNat) ∨ lead a = .invalid ∨
      0xC2 ≤ a.toNat ∧ a.toNat ≤ 0xF4 := by
  simp only [lead]
  grind

theorem encodeChar_one {c : Char} (h : c.toNat < 0x80) :
    utf8EncodeChar c = [UInt8.ofNat c.toNat] := by
  simp only [utf8EncodeChar, Char.toNat_val]
  rw [if_pos (by omega)]

theorem encodeChar_two {c : Char} (h : 0x80 ≤ c.toNat) (h' : c.toNat < 0x800) :
    utf8EncodeChar c = UInt8.ofNat (c.toNat / 64 + 0xC0) :: sextets 1 c.toNat := by
  simp only [utf8EncodeChar, Char.toNat_val]
  rw [if_neg (by omega), if_pos (by omega), Nat.mod_eq_of_lt (by omega : c.toNat / 64 < 32)]
  simp [sextets, sextet]

theorem encodeChar_three {c : Char} (h : 0x800 ≤ c.toNat) (h' : c.toNat < 0x10000) :
    utf8EncodeChar c = UInt8.ofNat (c.toNat / 64 ^ 2 + 0xE0) :: sextets 2 c.toNat := by
  simp only [utf8EncodeChar, Char.toNat_val]
  rw [if_neg (by omega), if_neg (by omega), if_pos (by omega),
    Nat.mod_eq_of_lt (by omega : c.toNat / 4096 < 16)]
  simp [sextets, sextet]

theorem encodeChar_four {c : Char} (h : 0x10000 ≤ c.toNat) (h' : c.toNat < 0x110000) :
    utf8EncodeChar c = UInt8.ofNat (c.toNat / 64 ^ 3 + 0xF0) :: sextets 3 c.toNat := by
  simp only [utf8EncodeChar, Char.toNat_val]
  rw [if_neg (by omega), if_neg (by omega), if_neg (by omega),
    Nat.mod_eq_of_lt (by omega : c.toNat / 262144 < 8)]
  simp [sextets, sextet]

theorem range_of_char (c : Char) : c.toNat < 0xD800 ∨ 0xE000 ≤ c.toNat ∧ c.toNat < 0x110000 := by
  have valid := c.valid
  simp only [UInt32.isValidChar, Nat.isValidChar, Char.toNat_val] at valid
  omega

theorem isValidChar_iff (n : Nat) : n.isValidChar ↔ n < 0xD800 ∨ 0xE000 ≤ n ∧ n < 0x110000 := by
  simp only [Nat.isValidChar]
  omega

theorem le_sextet_iff {k n : Nat} {low : UInt8} :
    low ≤ sextet k n ↔ low.toNat ≤ n / 64 ^ k % 64 + 0x80 := by
  rw [UInt8.le_iff_toNat_le, toNat_sextet]

theorem sextet_le_iff {k n : Nat} {high : UInt8} :
    sextet k n ≤ high ↔ n / 64 ^ k % 64 + 0x80 ≤ high.toNat := by
  rw [UInt8.le_iff_toNat_le, toNat_sextet]

theorem toNat_ofNat_of_lt {n : Nat} (h : n < 0x100) : (UInt8.ofNat n).toNat = n := by
  rw [UInt8.toNat_ofNat', Nat.mod_eq_of_lt h]

theorem exists_completes_encodeChar {c : Char} (h : 0x80 ≤ c.toNat) :
    ∃ a u tail, utf8EncodeChar c = a :: tail ∧ lead a = .start u ∧ Completes u tail c.toNat := by
  have scalar := range_of_char c
  rcases Nat.lt_or_ge c.toNat 0x800 with two | more
  · have first := toNat_ofNat_of_lt (n := c.toNat / 64 + 0xC0) (by omega)
    refine ⟨_, _, _, encodeChar_two h two, lead_two (by omega) (by omega), ?_⟩
    rw [completes_iff (by decide) (by decide)]
    exact ⟨by omega, rfl, sextet_range _ _⟩
  rcases Nat.lt_or_ge c.toNat 0x10000 with three | four
  · have first := toNat_ofNat_of_lt (n := c.toNat / 64 ^ 2 + 0xE0) (by omega)
    obtain ⟨low, high, start, lows, highs⟩ :=
      lead_three (a := UInt8.ofNat (c.toNat / 64 ^ 2 + 0xE0)) (by omega) (by omega)
    refine ⟨_, _, _, encodeChar_three more three, start, ?_⟩
    rw [completes_iff (by omega) (by omega), le_sextet_iff, sextet_le_iff]
    exact ⟨by omega, rfl, by omega, by omega⟩
  · have first := toNat_ofNat_of_lt (n := c.toNat / 64 ^ 3 + 0xF0) (by omega)
    obtain ⟨low, high, start, lows, highs⟩ :=
      lead_four (a := UInt8.ofNat (c.toNat / 64 ^ 3 + 0xF0)) (by omega) (by omega)
    refine ⟨_, _, _, encodeChar_four four (by omega), start, ?_⟩
    rw [completes_iff (by omega) (by omega), le_sextet_iff, sextet_le_iff]
    exact ⟨by omega, rfl, by omega, by omega⟩

theorem encodeChar_of_completes {a : UInt8} {u : Unfinished} {tail : List UInt8} {n : Nat}
    (start : lead a = .start u) (completes : Completes u tail n) :
    utf8EncodeChar (Char.ofNat n) = a :: tail := by
  obtain ⟨-, char⟩ | invalid | ⟨least, most⟩ := lead_cases a
  · rw [char] at start
    cases start
  · rw [invalid] at start
    cases start
  have number (scalar : n < 0xD800 ∨ 0xE000 ≤ n ∧ n < 0x110000) : (Char.ofNat n).toNat = n := by
    rw [Char.toNat_ofNat, if_pos ((isValidChar_iff n).2 scalar)]
  have byte {m : Nat} (h : a.toNat = m) : UInt8.ofNat m = a := by rw [← h, UInt8.ofNat_toNat]
  rcases Nat.lt_or_ge a.toNat 0xE0 with two | more
  · rw [lead_two least two] at start
    obtain rfl := Lead.start.inj start
    obtain ⟨quotient, rfl, -⟩ := (completes_iff (by decide) (by decide)).1 completes
    have same := number (by omega)
    rw [encodeChar_two (by omega) (by omega), same, byte (by omega)]
  rcases Nat.lt_or_ge a.toNat 0xF0 with three | four
  · obtain ⟨low, high, start', lows, highs⟩ := lead_three more three
    obtain rfl := Lead.start.inj (start'.symm.trans start)
    obtain ⟨quotient, rfl, range⟩ := (completes_iff (by omega) (by omega)).1 completes
    rw [le_sextet_iff, sextet_le_iff] at range
    have same := number (by omega)
    rw [encodeChar_three (by omega) (by omega), same, byte (by omega)]
  · obtain ⟨low, high, start', lows, highs⟩ := lead_four four most
    obtain rfl := Lead.start.inj (start'.symm.trans start)
    obtain ⟨quotient, rfl, range⟩ := (completes_iff (by omega) (by omega)).1 completes
    rw [le_sextet_iff, sextet_le_iff] at range
    have same := number (by omega)
    rw [encodeChar_four (by omega) (by omega), same, byte (by omega)]

theorem encodeChar_of_lead_eq_char {a : UInt8} {c : Char} (h : lead a = .char c) :
    utf8EncodeChar c = [a] := by
  obtain ⟨one, char⟩ | invalid | ⟨least, most⟩ := lead_cases a
  · obtain rfl := Lead.char.inj (char.symm.trans h)
    have same : (Char.ofNat a.toNat).toNat = a.toNat := by
      rw [Char.toNat_ofNat, if_pos ((isValidChar_iff _).2 (by omega))]
    rw [encodeChar_one (by omega), same, UInt8.ofNat_toNat]
  · cases invalid.symm.trans h
  · rcases Nat.lt_or_ge a.toNat 0xE0 with two | more
    · cases (lead_two least two).symm.trans h
    rcases Nat.lt_or_ge a.toNat 0xF0 with three | four
    · obtain ⟨_, _, start, -⟩ := lead_three more three
      cases start.symm.trans h
    · obtain ⟨_, _, start, -⟩ := lead_four four most
      cases start.symm.trans h

theorem resume_encode (cs : List Char) : resume none (encode cs) = cs.map some := by
  induction cs with
  | nil => rfl
  | cons c cs ih =>
    rw [encode, List.flatMap_cons, ← encode]
    rcases Nat.lt_or_ge c.toNat 0x80 with one | more
    · have first := toNat_ofNat_of_lt (n := c.toNat) (by omega)
      rw [encodeChar_one one, List.singleton_append, resume_lead, lead_one (by omega)]
      simp only [first, Char.ofNat_toNat, ih, List.map_cons]
    · obtain ⟨a, u, tail, encoded, start, completes⟩ := exists_completes_encodeChar more
      rw [encoded, List.cons_append, resume_lead, start]
      simp only [resume_of_completes completes, Char.ofNat_toNat, ih, List.map_cons]

theorem resume_some_ne_nil (u : Unfinished) (bytes : List UInt8) : resume (some u) bytes ≠ [] := by
  induction bytes generalizing u with
  | nil => simp [resume, Scan.finish]
  | cons b bytes ih =>
    rw [resume_unfinished]
    split
    · dsimp only
      split
      · exact List.cons_ne_nil _ _
      · exact ih _
    · exact List.cons_ne_nil _ _

theorem resume_cons_ne_nil (b : UInt8) (bytes : List UInt8) : resume none (b :: bytes) ≠ [] := by
  rw [resume_lead]
  cases lead b with
  | char c => exact List.cons_ne_nil _ _
  | start u => exact resume_some_ne_nil u bytes
  | invalid => exact List.cons_ne_nil _ _

theorem eq_encode_of_resume {bytes : List UInt8} {cs : List Char}
    (h : resume none bytes = cs.map some) : bytes = encode cs := by
  induction cs generalizing bytes with
  | nil =>
    cases bytes with
    | nil => rfl
    | cons a bytes => exact absurd h (resume_cons_ne_nil a bytes)
  | cons c cs ih =>
    cases bytes with
    | nil => cases h
    | cons a bytes =>
      rw [resume_lead, List.map_cons] at h
      rw [encode, List.flatMap_cons, ← encode]
      cases first : lead a with
      | char d =>
        rw [first] at h
        obtain ⟨char, later⟩ := List.cons.inj h
        obtain rfl := Option.some.inj char
        rw [encodeChar_of_lead_eq_char first, ih later, List.singleton_append]
      | invalid =>
        rw [first] at h
        cases h
      | start u =>
        rw [first] at h
        obtain ⟨tail, n, rest, rfl, completes, rfl, later⟩ := exists_completes h
        rw [encodeChar_of_completes first completes, ih later, List.cons_append]

theorem mapM_id_eq_some_iff {os : List (Option Char)} {cs : List Char} :
    os.mapM id = some cs ↔ os = cs.map some := by
  induction os generalizing cs with
  | nil => cases cs <;> simp
  | cons o os ih =>
    rw [List.mapM_cons]
    cases o with
    | none => cases cs <;> simp
    | some d => cases cs <;> simp [Option.bind_eq_some_iff, ih, and_comm]

theorem decode?_eq_some_iff {bytes : List UInt8} {cs : List Char} :
    decode? bytes = some cs ↔ bytes = encode cs := by
  rw [decode?, mapM_id_eq_some_iff]
  exact ⟨eq_encode_of_resume, fun h => by rw [h]; exact resume_encode cs⟩

theorem loop_toList (bytes : ByteArray) (i : Nat) (before : List UInt8) :
    ByteArray.toList.loop bytes i before = before.reverse ++ bytes.data.toList.drop i := by
  fun_induction ByteArray.toList.loop bytes i before with
  | case1 i before inside ih =>
    have inside' : i < bytes.data.toList.length := by simpa using inside
    rw [ih, List.drop_eq_getElem_cons inside']
    simp [ByteArray.get!, inside]
  | case2 i before outside =>
    rw [List.drop_eq_nil_of_le (by simpa using outside), List.append_nil]

theorem toUTF8_eq_encode (text : String) : text.toUTF8.toList = encode text.toList := by
  obtain ⟨cs, rfl⟩ := text.exists_eq_ofList
  rw [String.toUTF8_eq_toByteArray, String.toByteArray_ofList, String.toList_ofList, encode,
    List.utf8Encode, ByteArray.toList, loop_toList, List.toList_data_toByteArray]
  rfl

theorem decode?_eq_some_toList_iff {bytes : List UInt8} {text : String} :
    decode? bytes = some text.toList ↔ bytes = text.toUTF8.toList := by
  rw [decode?_eq_some_iff, toUTF8_eq_encode]

theorem exists_text_of_decode? {bytes : List UInt8} {cs : List Char} (h : decode? bytes = some cs) :
    ∃ text : String, text.toList = cs ∧ bytes = text.toUTF8.toList := by
  refine ⟨String.ofList cs, String.toList_ofList, ?_⟩
  rw [← decode?_eq_some_toList_iff, String.toList_ofList, h]

theorem decode?_eq_none_iff {bytes : List UInt8} :
    decode? bytes = none ↔ ∀ text : String, bytes ≠ text.toUTF8.toList := by
  constructor
  · intro h text encoded
    rw [decode?_eq_some_toList_iff.2 encoded] at h
    cases h
  · intro h
    cases decoded : decode? bytes with
    | none => rfl
    | some cs =>
      obtain ⟨text, -, encoded⟩ := exists_text_of_decode? decoded
      exact absurd encoded (h text)

end ByteCpu.Text.Utf8
