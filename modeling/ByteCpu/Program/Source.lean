import ByteCpu.Machine.Memory
import ByteCpu.Program.Error
import ByteCpu.Text.Blank

/-!
Program text. A line holds one byte in base 2 or nothing; a number sign starts a comment that goes
to the end of the line, and blanks around the byte do not count. `parse` reads the lines up to the
first bad one, so a bad token is reported even where there are also too many bytes.
-/

set_option autoImplicit false

namespace ByteCpu.Source

/-- The parts between line feeds; a final line feed is followed by an empty part. -/
def lines (source : List Char) : List (List Char) := source.splitOn '\n'

def code (line : List Char) : List Char := line.takeWhile (· != '#')

def token (line : List Char) : List Char := Text.trim (code line)

def indent (line : List Char) : List Char := (code line).takeWhile Text.isBlank

def isBit (c : Char) : Bool := c == '0' || c == '1'

def bitsValue (cs : List Char) : Nat :=
  cs.foldl (fun n c => 2 * n + if c == '1' then 1 else 0) 0

def byte? (token : List Char) : Option UInt8 :=
  if token.all isBit && bitsValue token ≤ 255 then some (UInt8.ofNat (bitsValue token)) else none

def wellFormed (line : List Char) : Bool := (token line).isEmpty || (byte? (token line)).isSome

def lineByte? (line : List Char) : Option UInt8 :=
  if (token line).isEmpty then none else byte? (token line)

def extent (ls : List (List Char)) : Nat := ls.foldr (fun l n => Text.utf8Length l + 1 + n) 0

def badToken (name source : String) (before : List (List Char)) (line : List Char) : BadToken where
  line := before.length + 1
  token := String.ofList (token line)
  sourceName := name
  source := source
  offset := extent before + Text.utf8Length (indent line)
  length := Text.utf8Length (token line)

def parse (name source : String) : Except LoadError (List UInt8) :=
  let ls := lines source.toList
  let good := ls.takeWhile wellFormed
  match ls.dropWhile wellFormed with
  | line :: _ => .error (.invalidByte (badToken name source good line))
  | [] =>
    let bytes := good.filterMap lineByte?
    if bytes.length ≤ Memory.size then .ok bytes
    else .error (.programTooLarge bytes.length Memory.size)

example : (parse "p" "101\r\n\t0011 # three").toOption = some [5, 3] := by decide +kernel

end ByteCpu.Source
