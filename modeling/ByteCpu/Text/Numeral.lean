/-!
Numerals: natural numbers written in a base with a least number of digits, and whole numbers read
under an upper bound. The reader names the first thing that is wrong, from left to right.
-/

set_option autoImplicit false

namespace ByteCpu.Text

/-- The digits of `n` in `base`, lower-case, with zeros in front up to `width` of them. -/
def digits (base width n : Nat) : List Char := (Nat.toDigits base n).leftpad width '0'

def decimal (n : Nat) : String := String.ofList (digits 10 0 n)

def hex (width n : Nat) : String := String.ofList (digits 16 width n)

def upperHex (width n : Nat) : String := String.ofList ((digits 16 width n).map Char.toUpper)

def binary (width n : Nat) : String := String.ofList (digits 2 width n)

theorem le_length_digits (base width n : Nat) : width ≤ (digits base width n).length := by
  simp [digits]; omega

inductive NumeralError where
  | empty
  | invalidDigit
  | overflow
  deriving DecidableEq, Repr

def NumeralError.message : NumeralError → String
  | .empty => "cannot parse integer from empty string"
  | .invalidDigit => "invalid digit found in string"
  | .overflow => "number too large to fit in target type"

def digitValue? (c : Char) : Option Nat :=
  if '0' ≤ c ∧ c ≤ '9' then some (c.toNat - '0'.toNat) else none

/-- Reads on from the value `n`; the digit test of a position comes before the bound. -/
def readDigits (bound : Nat) : Nat → List Char → Except NumeralError Nat
  | n, [] => .ok n
  | n, c :: cs =>
    match digitValue? c with
    | none => .error .invalidDigit
    | some d =>
      if n * 10 + d ≤ bound then readDigits bound (n * 10 + d) cs else .error .overflow

def readWhole (bound : Nat) : List Char → Except NumeralError Nat
  | [] => .error .empty
  | ['+'] => .error .invalidDigit
  | '+' :: cs => readDigits bound 0 cs
  | cs => readDigits bound 0 cs

def wordMax : Nat := 0xFFFFFFFFFFFFFFFF

end ByteCpu.Text
