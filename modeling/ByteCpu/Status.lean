import ByteCpu.Files.Path

/-!
Status lines: a right-aligned word, coloured if colours are on, and what it is about. Minimal
output has none. `Colour.paint` follows colored 2.1: an escape sequence for the colour, one that
resets it at the end, and the colour again after each reset inside.
-/

set_option autoImplicit false

namespace ByteCpu

inductive Colour where
  | green
  | cyan
  | red
  deriving DecidableEq, Repr

namespace Colour

def sequence : Colour → List Char
  | green => "\x1b[32m".toList
  | cyan => "\x1b[36m".toList
  | red => "\x1b[31m".toList

def reset : List Char := "\x1b[0m".toList

/-- A colour that the text itself turns off is turned on again. -/
def renew (c : Colour) : List Char → List Char
  | '\x1b' :: '[' :: '0' :: 'm' :: cs => reset ++ c.sequence ++ renew c cs
  | x :: cs => x :: renew c cs
  | [] => []

def paint (c : Colour) (cs : List Char) : List Char := c.sequence ++ c.renew cs ++ reset

end Colour

inductive Notice where
  | status (colour : Colour) (left right : String)
  | file (colour : Colour) (left : String) (path : Path)
  | setMinimal (on : Bool)
  deriving DecidableEq, Repr

structure Console where
  coloured : Bool := false
  minimal : Bool := false
  deriving DecidableEq, Repr

namespace Console

def statusWord (c : Console) (colour : Colour) (left : String) : String :=
  let padded := left.toList.leftpad 12 ' '
  String.ofList (if c.coloured then colour.paint padded else padded)

def status (c : Console) (colour : Colour) (left right : String) : String :=
  if c.minimal then "" else c.statusWord colour left ++ " " ++ right ++ "\n"

def file (c : Console) (colour : Colour) (left : String) (path : Path) : String :=
  c.status colour left ("target " ++ path.display)

def print (c : Console) : List Notice → String
  | [] => ""
  | .status colour left right :: ns => c.status colour left right ++ print c ns
  | .file colour left path :: ns => c.file colour left path ++ print c ns
  | .setMinimal on :: ns => print { c with minimal := on } ns

example : status { coloured := true } .red "Faulted" "at address 0x03" =
    "\x1b[31m     Faulted\x1b[0m at address 0x03\n" := by decide +kernel

end Console
end ByteCpu
