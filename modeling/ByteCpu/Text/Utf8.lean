/-!
Bytes read as UTF-8. `scan` gives the characters in order and one `none` for each maximal
ill-formed part: a byte that starts no character, or the bytes of a character cut off before its
end. Strict and lossy decoding are two views of it.
-/

set_option autoImplicit false

namespace ByteCpu.Text

def utf8Length (cs : List Char) : Nat := cs.foldr (fun c n => c.utf8Size + n) 0

@[simp] theorem utf8Length_append (cs ds : List Char) :
    utf8Length (cs ++ ds) = utf8Length cs + utf8Length ds := by
  induction cs with
  | nil => simp [utf8Length]
  | cons c cs ih =>
    simp only [utf8Length, List.cons_append, List.foldr_cons] at ih ⊢
    omega

namespace Utf8

/-- A character whose first bytes have been read: their bits, how many bytes are missing, and the
range in which the next of them has to lie. -/
structure Unfinished where
  bits : Nat
  missing : Nat
  low : UInt8 := 0x80
  high : UInt8 := 0xBF
  deriving DecidableEq, Repr

inductive Lead where
  | char (c : Char)
  | start (u : Unfinished)
  | invalid
  deriving DecidableEq, Repr

/-- The narrower ranges after E0, ED, F0 and F4 shut out overlong forms, surrogates and numbers
above 10FFFF. -/
def lead (b : UInt8) : Lead :=
  let n := b.toNat
  if n < 0x80 then .char (Char.ofNat n)
  else if n < 0xC2 then .invalid
  else if n < 0xE0 then .start ⟨n - 0xC0, 1, 0x80, 0xBF⟩
  else if n = 0xE0 then .start ⟨0x0, 2, 0xA0, 0xBF⟩
  else if n = 0xED then .start ⟨0xD, 2, 0x80, 0x9F⟩
  else if n < 0xF0 then .start ⟨n - 0xE0, 2, 0x80, 0xBF⟩
  else if n = 0xF0 then .start ⟨0x0, 3, 0x90, 0xBF⟩
  else if n < 0xF4 then .start ⟨n - 0xF0, 3, 0x80, 0xBF⟩
  else if n = 0xF4 then .start ⟨0x4, 3, 0x80, 0x8F⟩
  else .invalid

structure Scan where
  done : List (Option Char) := []
  unfinished : Option Unfinished := none
  deriving DecidableEq, Repr

def Scan.start (s : Scan) (b : UInt8) : Scan :=
  match lead b with
  | .char c => ⟨some c :: s.done, none⟩
  | .start u => ⟨s.done, some u⟩
  | .invalid => ⟨none :: s.done, none⟩

/-- A byte that does not go on with the unfinished character ends it and is read afresh. -/
def Scan.push (s : Scan) (b : UInt8) : Scan :=
  match s.unfinished with
  | none => s.start b
  | some u =>
    if u.low ≤ b && b ≤ u.high then
      let bits := u.bits * 64 + (b.toNat - 0x80)
      if u.missing ≤ 1 then ⟨some (Char.ofNat bits) :: s.done, none⟩
      else ⟨s.done, some ⟨bits, u.missing - 1, 0x80, 0xBF⟩⟩
    else Scan.start ⟨none :: s.done, none⟩ b

def Scan.finish (s : Scan) : List (Option Char) :=
  match s.unfinished with
  | none => s.done.reverse
  | some _ => (none :: s.done).reverse

def scan (bytes : List UInt8) : List (Option Char) := (bytes.foldl Scan.push {}).finish

def decode? (bytes : List UInt8) : Option (List Char) := (scan bytes).mapM id

def decodeLossy (bytes : List UInt8) : List Char := (scan bytes).map (·.getD '\uFFFD')

example : scan [0x61, 0xE6, 0x97, 0xA5, 0xFF] = [some 'a', some '日', none] := by decide
example : scan [0xF0, 0x90, 0x41] = [none, some 'A'] := by decide
example : scan [0xED, 0xA0, 0x80] = [none, none, none] := by decide

end Utf8
end ByteCpu.Text
