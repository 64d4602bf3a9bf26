import ByteCpu.Proofs.Program.Grammar
import ByteCpu.Proofs.Settings.Sessions
import ByteCpu.Proofs.Text.Utf8
import Mathlib.Data.Nat.Digits.Defs

/-!
The step limit from its variable. The main statement is which values of the variable set a limit,
and which one, and that of the other values only the missing one goes without a warning.
-/

set_option autoImplicit false

namespace ByteCpu

namespace Text

def IsDigit (c : Char) : Prop := '0' ≤ c ∧ c ≤ '9'

def decimalValue (ds : List Char) : Nat :=
  Nat.ofDigits 10 (ds.reverse.map fun c => c.toNat - '0'.toNat)

/-- A whole number as text: digits, as many as one likes but at least one, after at most one plus
sign. -/
inductive IsWhole : List Char → Nat → Prop
  | whole {sign ds : List Char} (plus : sign = [] ∨ sign = ['+']) (written : ds ≠ [])
      (digit : ∀ c ∈ ds, IsDigit c) : IsWhole (sign ++ ds) (decimalValue ds)

theorem digitValue?_eq_some_iff {c : Char} {d : Nat} :
    digitValue? c = some d ↔ IsDigit c ∧ d = c.toNat - '0'.toNat := by
  unfold digitValue? IsDigit
  split
  next digit => rw [Option.some.injEq, and_iff_right digit, eq_comm]
  next other => exact iff_of_false nofun fun h => other h.1

theorem digitValue?_eq_none_iff {c : Char} : digitValue? c = none ↔ ¬ IsDigit c := by
  unfold digitValue? IsDigit
  split
  next digit => exact iff_of_false nofun (not_not_intro digit)
  next other => exact iff_of_true rfl other

theorem decimalValue_cons (c : Char) (ds : List Char) :
    decimalValue (c :: ds) = (c.toNat - '0'.toNat) * 10 ^ ds.length + decimalValue ds := by
  rw [decimalValue, List.reverse_cons, List.map_append, Nat.ofDigits_append, ← decimalValue,
    List.length_map, List.length_reverse, List.map_singleton, Nat.ofDigits_singleton]
  ring

/-- Digits are read on under a bound just if the number they lead to is within it: the numbers on
the way are no larger. -/
theorem readDigits_eq_ok_iff {bound v n : Nat} {cs : List Char} (within : v ≤ bound) :
    readDigits bound v cs = .ok n ↔
      (∀ c ∈ cs, IsDigit c) ∧ n = v * 10 ^ cs.length + decimalValue cs ∧ n ≤ bound := by
  induction cs generalizing v with
  | nil =>
    rw [readDigits, Except.ok.injEq]
    simp [decimalValue]
    omega
  | cons c cs ih =>
    rw [readDigits, List.forall_mem_cons, decimalValue_cons, List.length_cons]
    cases value : digitValue? c with
    | none => exact iff_of_false nofun fun h => digitValue?_eq_none_iff.1 value h.1.1
    | some d =>
      obtain ⟨digit, rfl⟩ := digitValue?_eq_some_iff.1 value
      have shift : v * 10 ^ (cs.length + 1) + ((c.toNat - '0'.toNat) * 10 ^ cs.length +
          decimalValue cs) = (v * 10 + (c.toNat - '0'.toNat)) * 10 ^ cs.length +
          decimalValue cs := by ring
      rw [shift, and_iff_right digit]
      dsimp only
      split
      next fits => exact ih fits
      next large =>
        refine iff_of_false nofun fun ⟨_, number, small⟩ => large ?_
        have grows := Nat.le_mul_of_pos_right (v * 10 + (c.toNat - '0'.toNat))
          (Nat.pow_pos (n := cs.length) (by decide : 0 < 10))
        omega

theorem not_isDigit_plus : ¬ IsDigit '+' := by
  unfold IsDigit
  decide

theorem isBlank_of_isDigit {c : Char} (h : IsDigit c) : isBlank c = false := by
  have least : 48 ≤ c.toNat := h.1
  have most : c.toNat ≤ 57 := h.2
  simp [isBlank, isWithin, blankRanges]
  omega

theorem readWhole_eq_ok_iff {bound n : Nat} {cs : List Char} :
    readWhole bound cs = .ok n ↔ IsWhole cs n ∧ n ≤ bound := by
  have digits {ds : List Char} : readDigits bound 0 ds = .ok n ↔
      (∀ c ∈ ds, IsDigit c) ∧ n = decimalValue ds ∧ n ≤ bound := by
    rw [readDigits_eq_ok_iff bound.zero_le, Nat.zero_mul, Nat.zero_add]
  constructor
  · intro h
    unfold readWhole at h
    split at h
    · cases h
    · cases h
    next cs bare =>
      obtain ⟨digit, rfl, small⟩ := digits.1 h
      exact ⟨.whole (.inr rfl) bare digit, small⟩
    next bare _ _ =>
      obtain ⟨digit, rfl, small⟩ := digits.1 h
      exact ⟨.whole (.inl rfl) bare digit, small⟩
  · rintro ⟨⟨rfl | rfl, written, digit⟩, small⟩
    · obtain ⟨c, cs, rfl⟩ := List.exists_cons_of_ne_nil written
      have other : c ≠ '+' := by
        rintro rfl
        exact not_isDigit_plus (digit _ List.mem_cons_self)
      rw [List.nil_append, readWhole]
      · exact digits.2 ⟨digit, rfl, small⟩
      · nofun
      · exact fun same => other (List.cons.inj same).1
      · exact fun _ same => other (List.cons.inj same).1
    · rw [List.singleton_append, readWhole]
      · exact digits.2 ⟨digit, rfl, small⟩
      · exact written

theorem tight_of_isWhole {cs : List Char} {n : Nat} (h : IsWhole cs n) : Tight cs := by
  cases h with
  | @whole sign ds plus written digit =>
    have bare : ∀ c ∈ sign ++ ds, isBlank c = false := by
      intro c hc
      obtain front | back := List.mem_append.1 hc
      · obtain rfl | rfl := plus
        · cases front
        · rw [List.mem_singleton.1 front]
          decide
      · exact isBlank_of_isDigit (digit c back)
    exact ⟨fun c hc => bare c (List.mem_of_mem_head? hc),
      fun c hc => bare c (List.mem_of_mem_getLast? hc)⟩

def HoldsWhole (cs : List Char) (n : Nat) : Prop :=
  ∃ front ds back, cs = front ++ ds ++ back ∧ (∀ c ∈ front, isBlank c = true) ∧ IsWhole ds n ∧
    ∀ c ∈ back, isBlank c = true

theorem readWhole_trim_eq_ok_iff {bound n : Nat} {cs : List Char} :
    readWhole bound (trim cs) = .ok n ↔ n ≤ bound ∧ HoldsWhole cs n := by
  rw [readWhole_eq_ok_iff]
  constructor
  · rintro ⟨whole, small⟩
    obtain ⟨back, parts, blank⟩ := exists_trimEnd_append (trimStart cs)
    refine ⟨small, cs.takeWhile isBlank, trim cs, back, ?_,
      fun c hc => List.mem_takeWhile_imp hc, whole, blank⟩
    rw [List.append_assoc, trim, ← parts, takeWhile_append_trimStart]
  · rintro ⟨small, front, ds, back, rfl, blankFront, whole, blankBack⟩
    rw [trim_append (tight_of_isWhole whole) blankFront blankBack]
    exact ⟨whole, small⟩

end Text

/-- The value of the variable is the encoding of a text that holds a whole number of 64 bits. -/
def SetsLimit (value : Option (List UInt8)) (n : Nat) : Prop :=
  n < 2 ^ 64 ∧ ∃ text : String, value = some text.toUTF8.toList ∧ Text.HoldsWhole text.toList n

namespace StepSetting

theorem read_eq_limit_iff {value : Option (List UInt8)} {n : Nat} :
    read value = .limit n ↔ SetsLimit value n := by
  cases value with
  | none => exact iff_of_false nofun fun ⟨_, _, encoded, _⟩ => nomatch encoded
  | some bytes =>
    rw [read]
    constructor
    · intro h
      cases decoded : Text.Utf8.decode? bytes with
      | none => rw [decoded] at h; cases h
      | some cs =>
        rw [decoded] at h
        dsimp only at h
        cases number : Text.readWhole Text.wordMax (Text.trim cs) with
        | error e => rw [number] at h; cases h
        | ok m =>
          rw [number] at h
          obtain rfl := StepSetting.limit.inj h
          obtain ⟨small, holds⟩ := Text.readWhole_trim_eq_ok_iff.1 number
          obtain ⟨text, rfl, encoded⟩ := Text.Utf8.exists_text_of_decode? decoded
          exact ⟨Nat.lt_succ_of_le small, text, congrArg some encoded, holds⟩
    · rintro ⟨small, text, encoded, holds⟩
      have decoded := Text.Utf8.decode?_eq_some_toList_iff.2 (Option.some.inj encoded)
      have number : Text.readWhole Text.wordMax (Text.trim text.toList) = .ok n :=
        Text.readWhole_trim_eq_ok_iff.2 ⟨Nat.le_of_lt_succ small, holds⟩
      rw [decoded]
      dsimp only
      rw [number]

theorem read_eq_unset_iff {value : Option (List UInt8)} : read value = .unset ↔ value = none := by
  cases value with
  | none => exact iff_of_true rfl rfl
  | some bytes =>
    refine iff_of_false ?_ nofun
    rw [read]
    split
    · nofun
    · split <;> nofun

theorem eq_malformed_iff {setting : StepSetting} :
    setting = .malformed ↔ setting ≠ .unset ∧ ∀ n, setting ≠ .limit n := by
  cases setting <;> simp

end StepSetting

namespace Session

theorem call_maxSteps_eq_iff {s : Session} {setting : StepSetting} {trace : Bool}
    (fixed : Settled s setting trace) :
    (∀ n, s.call .maxSteps = ⟨s, .ok (.steps (some n)), []⟩ ↔ setting = .limit n) ∧
    (s.call .maxSteps = ⟨s, .ok (.steps none), []⟩ ↔ setting = .unset) ∧
    (s.call .maxSteps = ⟨s, .ok (.steps none), [.limitMalformed]⟩ ↔ setting = .malformed) := by
  rw [fixed.maxSteps]
  cases setting <;> simp

/-- Asked for its step limit, a session gives the number that the variable held when it was first
initialized. A missing variable is no limit; any other value is a malformed one, with a warning. -/
theorem limit_is_number_of_variable (vs : Environment) (on : Bool) {before : List Call}
    (later : List Call) (first : .init ∉ before) :
    let s := (start vs on).after (before ++ .init :: later)
    let value := lastValue "LS8_MAX_STEPS" vs.maxSteps before
    (∀ n, s.call .maxSteps = ⟨s, .ok (.steps (some n)), []⟩ ↔ SetsLimit value n) ∧
    (s.call .maxSteps = ⟨s, .ok (.steps none), []⟩ ↔ value = none) ∧
    (s.call .maxSteps = ⟨s, .ok (.steps none), [.limitMalformed]⟩ ↔
      value ≠ none ∧ ∀ n, ¬ SetsLimit value n) := by
  intro s value
  obtain ⟨limit, unset, malformed⟩ :=
    call_maxSteps_eq_iff (settled (settings_after_init (s := start vs on) later rfl first))
  refine ⟨fun n => (limit n).trans StepSetting.read_eq_limit_iff,
    unset.trans StepSetting.read_eq_unset_iff, malformed.trans ?_⟩
  rw [StepSetting.eq_malformed_iff]
  exact and_congr (not_congr StepSetting.read_eq_unset_iff)
    (forall_congr' fun _ => not_congr StepSetting.read_eq_limit_iff)

def sevenSteps : List Call := [.assign "LS8_MAX_STEPS" (some "\t+007\u3000".toUTF8.toList)]

def tooManySteps : List Call :=
  [.assign "LS8_MAX_STEPS" (some "18446744073709551616".toUTF8.toList)]

theorem sevenSteps_limit_is_number_of_variable :
    .init ∉ sevenSteps ∧ .init ∉ tooManySteps ∧
      (let s := (start {} false).after (sevenSteps ++ .init :: tooManySteps)
       s.call .maxSteps = ⟨s, .ok (.steps (some 7)), []⟩) ∧
      let s := (start {} false).after (tooManySteps ++ .init :: sevenSteps)
      s.call .maxSteps = ⟨s, .ok (.steps none), [.limitMalformed]⟩ := by
  have firstSeven : .init ∉ sevenSteps := by decide +kernel
  have firstMany : .init ∉ tooManySteps := by decide +kernel
  have seven : StepSetting.read (lastValue "LS8_MAX_STEPS" none sevenSteps) = .limit 7 := by
    decide +kernel
  have many : StepSetting.read (lastValue "LS8_MAX_STEPS" none tooManySteps) = .malformed := by
    decide +kernel
  obtain ⟨set, noLimit⟩ := StepSetting.eq_malformed_iff.1 many
  obtain ⟨limit, -⟩ := limit_is_number_of_variable {} false tooManySteps firstSeven
  obtain ⟨-, -, malformed⟩ := limit_is_number_of_variable {} false sevenSteps firstMany
  exact ⟨firstSeven, firstMany, (limit 7).2 (StepSetting.read_eq_limit_iff.1 seven),
    malformed.2 ⟨set ∘ StepSetting.read_eq_unset_iff.2,
      fun n => noLimit n ∘ StepSetting.read_eq_limit_iff.2⟩⟩

end Session
end ByteCpu
