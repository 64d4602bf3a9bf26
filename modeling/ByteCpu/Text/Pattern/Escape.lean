import ByteCpu.Text.Pattern.Mode

/-!
Escapes of regular expressions: what a backslash makes of the characters after it.
-/

set_option autoImplicit false

namespace ByteCpu.Text.Pattern

inductive Escape where
  | literal (c : Char) (isByte : Bool)
  | shorthand (negated : Bool)
  | edge (ofWord : Bool)
  deriving DecidableEq, Repr

namespace Escape

def hexDigit? (c : Char) : Option Nat :=
  if c.isDigit then some (c.toNat - '0'.toNat)
  else if 'a' ≤ c.toLower ∧ c.toLower ≤ 'f' then some (c.toLower.toNat - 'a'.toNat + 10)
  else none

def readHex (m : Mode) : Nat → Nat → List Char → Option (Nat × List Char)
  | 0, n, cs => some (n, cs)
  | missing + 1, n, cs =>
    match m.skip cs with
    | [] => none
    | c :: cs => do readHex m missing (16 * n + (← hexDigit? c)) cs

def readNumbered (m : Mode) (width : Nat) (cs : List Char) : Option (Escape × List Char) := do
  let (n, rest) ← readHex m width 0 cs
  if n.isValidChar then return (literal (.ofNat n) (width = 2), rest) else none

def control? : Char → Option Char
  | 'a' => some '\x07'
  | 't' => some '\t'
  | 'n' => some '\n'
  | 'v' => some '\x0B'
  | 'f' => some '\x0C'
  | 'r' => some '\r'
  | _ => none

/-- Letters and digits without a meaning of their own cannot be escaped, nor can characters beyond
ASCII. -/
def read (m : Mode) : List Char → Option (Escape × List Char)
  | [] => none
  | c :: cs =>
    match c with
    | 'x' => readNumbered m 2 cs
    | 'u' => readNumbered m 4 cs
    | 'U' => readNumbered m 8 cs
    | 'd' | 's' | 'w' => some (shorthand false, cs)
    | 'D' | 'S' | 'W' => some (shorthand true, cs)
    | 'A' | 'z' => some (edge false, cs)
    | 'b' | 'B' | '<' | '>' => some (edge true, cs)
    | _ =>
      match control? c with
      | some code => some (literal code false, cs)
      | none => if c.toNat < 0x80 && !c.isAlphanum then some (literal c false, cs) else none

end Escape
end ByteCpu.Text.Pattern
