import ByteCpu.Text.Numeral
import Mathlib

/-!
Numerals read back. A reader of digits in a base up to sixteen takes what is written in that base,
with any number of zeros in front, for the number it was written from. What is written is the only
numeral of the number that has no more zeros in front than make up a width.
-/

set_option autoImplicit false

namespace ByteCpu.Text

/-- The value of a digit. Upper-case letters are no digits. -/
def digitOf? (base : Nat) (c : Char) : Option Nat :=
  ("0123456789abcdef".toList.idxOf? c).filter (· < base)

def readOn? (base n : Nat) (cs : List Char) : Option Nat :=
  cs.foldlM (fun n c => (digitOf? base c).map (base * n + ·)) n

def numeral? (base : Nat) (cs : List Char) : Option Nat :=
  if cs.isEmpty then none else readOn? base 0 cs

def byteNumeral? (base : Nat) (cs : List Char) : Option UInt8 :=
  (numeral? base cs).bind fun n => if n < 256 then some (UInt8.ofNat n) else none

section
variable {base : Nat}

theorem digitOf?_digitChar (small : base ≤ 16) {d : Nat} (h : d < base) :
    digitOf? base d.digitChar = some d := by
  have found : ∀ d < 16, "0123456789abcdef".toList.idxOf? d.digitChar = some d := by decide
  rw [digitOf?, found d (by omega), Option.filter_some, if_pos (by simpa using h)]

theorem readOn?_append (n : Nat) (cs ds : List Char) :
    readOn? base n (cs ++ ds) = (readOn? base n cs).bind (readOn? base · ds) :=
  List.foldlM_append

theorem readOn?_digitChar (small : base ≤ 16) (n : Nat) {d : Nat} (h : d < base) :
    readOn? base n [d.digitChar] = some (base * n + d) := by
  simp [readOn?, digitOf?_digitChar small h]

theorem readOn?_zeros (small : base ≤ 16) (large : 1 < base) (k : Nat) :
    readOn? base 0 (List.replicate k '0') = some 0 := by
  induction k with
  | zero => rfl
  | succ k ih =>
    rw [List.replicate_succ', readOn?_append, ih, Option.bind_some]
    exact readOn?_digitChar small 0 (d := 0) (by omega)

theorem readOn?_toDigits (small : base ≤ 16) (large : 1 < base) (n : Nat) :
    readOn? base 0 (Nat.toDigits base n) = some n := by
  induction n using Nat.base_induction base large with
  | single d less => simpa [Nat.toDigits_of_lt_base less] using readOn?_digitChar small 0 less
  | digit n d less pos ih =>
    rw [← Nat.toDigits_append_toDigits large pos less, readOn?_append, ih,
      Nat.toDigits_of_lt_base less, Option.bind_some, readOn?_digitChar small n less]

theorem numeral?_digits (small : base ≤ 16) (large : 1 < base) (width n : Nat) :
    numeral? base (digits base width n) = some n := by
  have written : (digits base width n).isEmpty = false := by simp [digits]
  rw [numeral?, written, digits, List.leftpad, readOn?_append, readOn?_zeros small large]
  exact readOn?_toDigits small large n

theorem byteNumeral?_digits (small : base ≤ 16) (large : 1 < base) (width : Nat) (b : UInt8) :
    byteNumeral? base (digits base width b.toNat) = some b := by
  rw [byteNumeral?, numeral?_digits small large, Option.bind_some, if_pos b.toNat_lt,
    UInt8.ofNat_toNat]

theorem exists_digitChar_of_mem_toDigits (large : 1 < base) {n : Nat} {c : Char}
    (h : c ∈ Nat.toDigits base n) : ∃ d < base, c = d.digitChar := by
  induction n using Nat.base_induction base large with
  | single d less =>
    rw [Nat.toDigits_of_lt_base less] at h
    exact ⟨d, less, List.mem_singleton.1 h⟩
  | digit n d less pos ih =>
    rw [← Nat.toDigits_append_toDigits large pos less, Nat.toDigits_of_lt_base less] at h
    obtain earlier | last := List.mem_append.1 h
    · exact ih earlier
    · exact ⟨d, less, List.mem_singleton.1 last⟩

theorem forall_mem_digits (large : 1 < base) {P : Char → Prop}
    (digit : ∀ d < base, P d.digitChar) (width n : Nat) : ∀ c ∈ digits base width n, P c := by
  intro c hc
  obtain zero | written := List.mem_append.1 hc
  · rw [List.eq_of_mem_replicate zero]
    exact digit 0 (by omega)
  · obtain ⟨d, less, rfl⟩ := exists_digitChar_of_mem_toDigits large written
    exact digit d less

theorem not_mem_digits (small : base ≤ 16) (large : 1 < base) (width n : Nat) {c : Char}
    (h : digitOf? base c = none) : c ∉ digits base width n := by
  have other : ∀ d < base, d.digitChar ≠ c := by
    rintro d less rfl
    rw [digitOf?_digitChar small less] at h
    cases h
  exact fun written => forall_mem_digits (P := (· ≠ c)) large other width n c written rfl

theorem length_digits (large : 1 < base) {width n : Nat} (pos : 0 < width)
    (h : n < base ^ width) : (digits base width n).length = width := by
  have few := (Nat.length_toDigits_le_iff large pos).2 h
  rw [digits, List.length_leftpad, Nat.max_eq_left few]

theorem digitOf?_eq_some_iff {c : Char} {d : Nat} :
    digitOf? base c = some d ↔ d < base ∧ d < 16 ∧ c = d.digitChar := by
  have found : ∀ d < 16, "0123456789abcdef".toList.idxOf? d.digitChar = some d := by decide
  have written : ∀ d < 16, "0123456789abcdef".toList[d]? = some d.digitChar := by decide
  rw [digitOf?, Option.filter_eq_some_iff]
  constructor
  · rintro ⟨place, less⟩
    obtain ⟨inside, same, -⟩ := List.idxOf?_eq_some_iff.1 place
    have small : d < 16 := inside
    have here := written d small
    rw [List.getElem?_eq_getElem inside, same] at here
    exact ⟨by simpa using less, small, Option.some.inj here⟩
  · rintro ⟨less, small, rfl⟩
    exact ⟨found d small, by simpa using less⟩

theorem readOn?_bounds {v n : Nat} {cs : List Char} (h : readOn? base v cs = some n) :
    v * base ^ cs.length ≤ n ∧ n < (v + 1) * base ^ cs.length := by
  induction cs generalizing v with
  | nil =>
    obtain rfl := Option.some.inj h
    simp
  | cons c cs ih =>
    obtain ⟨w, read, later⟩ := Option.bind_eq_some_iff.1 h
    obtain ⟨d, digit, rfl⟩ := Option.map_eq_some_iff.1 read
    have less := (digitOf?_eq_some_iff.1 digit).1
    obtain ⟨low, high⟩ := ih later
    rw [List.length_cons, pow_succ]
    constructor
    · calc v * (base ^ cs.length * base) = base * v * base ^ cs.length := by ring
        _ ≤ (base * v + d) * base ^ cs.length := Nat.mul_le_mul_right _ (by omega)
        _ ≤ n := low
    · have carry : base * v + d + 1 ≤ base * (v + 1) := by rw [Nat.mul_succ]; omega
      calc n < (base * v + d + 1) * base ^ cs.length := high
        _ ≤ base * (v + 1) * base ^ cs.length := Nat.mul_le_mul_right _ carry
        _ = (v + 1) * (base ^ cs.length * base) := by ring

theorem eq_of_readOn? {v w n : Nat} {cs ds : List Char} (long : cs.length = ds.length)
    (h : readOn? base v cs = some n) (h' : readOn? base w ds = some n) : v = w ∧ cs = ds := by
  induction cs generalizing v w ds with
  | nil =>
    obtain rfl := List.eq_nil_of_length_eq_zero long.symm
    exact ⟨Option.some.inj (h.trans h'.symm), rfl⟩
  | cons c cs ih =>
    obtain ⟨e, ds, rfl⟩ := List.exists_cons_of_length_eq_add_one long.symm
    obtain ⟨_, read, later⟩ := Option.bind_eq_some_iff.1 h
    obtain ⟨_, read', later'⟩ := Option.bind_eq_some_iff.1 h'
    obtain ⟨d, digit, rfl⟩ := Option.map_eq_some_iff.1 read
    obtain ⟨d', digit', rfl⟩ := Option.map_eq_some_iff.1 read'
    obtain ⟨same, rfl⟩ := ih (Nat.succ.inj long) later later'
    obtain ⟨less, -, rfl⟩ := digitOf?_eq_some_iff.1 digit
    obtain ⟨less', -, rfl⟩ := digitOf?_eq_some_iff.1 digit'
    obtain rfl : d = d' := by
      rw [← Nat.mod_eq_of_lt less, ← Nat.mul_add_mod base v d, same, Nat.mul_add_mod,
        Nat.mod_eq_of_lt less']
    have pos : 0 < base := by omega
    exact ⟨Nat.eq_of_mul_eq_mul_left pos (Nat.add_right_cancel same), rfl⟩

/-- A numeral with no more zeros in front than make up the width. -/
structure IsNumeral (base width n : Nat) (cs : List Char) : Prop where
  value : numeral? base cs = some n
  wide : width ≤ cs.length
  bare : cs.head? = some '0' → cs.length = max width 1

theorem head?_toDigits (small : base ≤ 16) (large : 1 < base) {n : Nat} (pos : 0 < n) :
    (Nat.toDigits base n).head? ≠ some '0' := by
  induction n using Nat.base_induction base large with
  | single d less =>
    have digit : ∀ d < 16, 0 < d → d.digitChar ≠ '0' := by decide
    rw [Nat.toDigits_of_lt_base less, List.head?_cons]
    exact fun zero => digit d (by omega) pos (Option.some.inj zero)
  | digit n d less front ih =>
    rw [← Nat.toDigits_append_toDigits large front less,
      List.head?_append_of_ne_nil _ Nat.toDigits_ne_nil]
    exact ih front

theorem isNumeral_digits (small : base ≤ 16) (large : 1 < base) (width n : Nat) :
    IsNumeral base width n (digits base width n) where
  value := numeral?_digits small large width n
  wide := le_length_digits base width n
  bare zero := by
    have size : (digits base width n).length = max width (Nat.toDigits base n).length :=
      List.length_leftpad ..
    have some := List.length_pos_iff.2 (Nat.toDigits_ne_nil (n := n) (b := base))
    rcases Nat.lt_or_ge (Nat.toDigits base n).length width with short | long
    · omega
    · rw [digits, List.leftpad, Nat.sub_eq_zero_of_le long, List.replicate_zero,
        List.nil_append] at zero
      obtain rfl | pos := Nat.eq_zero_or_pos n
      · rw [size, Nat.toDigits_zero, List.length_singleton]
      · exact absurd zero (head?_toDigits small large pos)

theorem numeral?_eq_some_iff {cs : List Char} {n : Nat} :
    numeral? base cs = some n ↔ cs ≠ [] ∧ readOn? base 0 cs = some n := by
  cases cs with
  | nil => exact iff_of_false nofun fun h => h.1 rfl
  | cons c cs => exact (and_iff_right (List.cons_ne_nil c cs)).symm

/-- A numeral that is longer than another of the same number has a digit other than zero in front,
and then it is of a larger number. -/
theorem IsNumeral.length_le {width n : Nat} {cs ds : List Char} (h : IsNumeral base width n cs)
    (h' : IsNumeral base width n ds) : cs.length ≤ ds.length := by
  obtain ⟨written, read⟩ := numeral?_eq_some_iff.1 h.value
  obtain ⟨written', read'⟩ := numeral?_eq_some_iff.1 h'.value
  obtain ⟨c, cs, rfl⟩ := List.exists_cons_of_ne_nil written
  by_contra longer
  obtain ⟨_, first, later⟩ := Option.bind_eq_some_iff.1 read
  obtain ⟨d, digit, rfl⟩ := Option.map_eq_some_iff.1 first
  obtain ⟨less, -, rfl⟩ := digitOf?_eq_some_iff.1 digit
  have pos : 0 < d := by
    by_contra zero
    obtain rfl : d = 0 := by omega
    have size := h.bare rfl
    have some := List.length_pos_iff.2 written'
    have wide := h'.wide
    omega
  have high : n < base ^ ds.length := by simpa using (readOn?_bounds read').2
  have low : base ^ cs.length ≤ n :=
    calc base ^ cs.length ≤ d * base ^ cs.length := Nat.le_mul_of_pos_left _ pos
      _ ≤ n := by simpa using (readOn?_bounds later).1
  have fits : base ^ ds.length ≤ base ^ cs.length :=
    Nat.pow_le_pow_right (by omega) (by simpa using longer)
  omega

theorem IsNumeral.eq_digits {width n : Nat} {cs : List Char} (h : IsNumeral base width n cs)
    (small : base ≤ 16) (large : 1 < base) : cs = digits base width n := by
  have written := isNumeral_digits small large width n
  have long := Nat.le_antisymm (h.length_le written) (written.length_le h)
  exact (eq_of_readOn? long (numeral?_eq_some_iff.1 h.value).2
    (numeral?_eq_some_iff.1 written.value).2).2

theorem isNumeral_iff (small : base ≤ 16) (large : 1 < base) {width n : Nat} {cs : List Char} :
    IsNumeral base width n cs ↔ cs = digits base width n :=
  ⟨fun h => h.eq_digits small large, fun h => h ▸ isNumeral_digits small large width n⟩

end

/-- A decimal numeral. No zero stands in front of another digit. -/
structure IsDecimal (n : Nat) (cs : List Char) : Prop where
  value : numeral? 10 cs = some n
  bare : cs.head? = some '0' → cs = ['0']

theorem digits_zero_width (base n : Nat) : digits base 0 n = Nat.toDigits base n := by
  simp [digits, List.leftpad]

theorem isDecimal_digits (n : Nat) : IsDecimal n (digits 10 0 n) where
  value := numeral?_digits (by decide) (by decide) 0 n
  bare zero := by
    rw [digits_zero_width] at zero ⊢
    obtain rfl | pos := Nat.eq_zero_or_pos n
    · rfl
    · exact absurd zero (head?_toDigits (by decide) (by decide) pos)

end ByteCpu.Text
