/-!
Control characters and the sequences they start, as terminals take them: escape sequences, control
sequences with their parameters, and control strings. `visible` is what is left of a text without
them.
-/

set_option autoImplicit false

namespace ByteCpu.Text.Control

/-- What the next character belongs to. A device string has parameters and marks before its
contents. -/
inductive State where
  | text
  | escape
  | escapeMarks
  | sequence
  | deviceStart
  | deviceParameters
  | deviceMarks
  | string
  | command
  deriving DecidableEq, Repr

namespace State

def afterEscape : Char → State
  | '[' => sequence
  | ']' => command
  | 'P' => deviceStart
  | 'X' | '^' | '_' => string
  | _ => text

/-- An escape starts afresh in any state, and the characters 18 and 1A cancel. A string ends at
the byte 9C, even inside a character, and a command at the bell. -/
def next (s : State) (c : Char) : State :=
  let n := c.toNat
  let isIn := fun (low high : Nat) => low ≤ n && n ≤ high
  if n = 0x1B then escape
  else if n = 0x18 || n = 0x1A then text
  else
    match s with
    | text => text
    | escape => if isIn 0x20 0x2F then escapeMarks else if isIn 0x30 0x7E then afterEscape c else s
    | escapeMarks => if isIn 0x30 0x7E then text else s
    | sequence => if isIn 0x40 0x7E then text else s
    | deviceStart =>
      if isIn 0x20 0x2F then deviceMarks
      else if isIn 0x30 0x3F then deviceParameters
      else if isIn 0x40 0x7E then string
      else s
    | deviceParameters =>
      if isIn 0x20 0x2F then deviceMarks else if isIn 0x3C 0x7E then string else s
    | deviceMarks => if isIn 0x30 0x7E then string else s
    | string => if (String.utf8EncodeChar c).contains 0x9C then text else s
    | command => if n = 0x07 then text else s

def obeysControls : State → Bool
  | text | escape | escapeMarks | sequence => true
  | _ => false

def isSpacing (c : Char) : Bool := c = '\t' || c = '\n' || c = '\x0C' || c = '\r'

def reveals (s : State) (c : Char) : Bool :=
  (s = text && 0x20 ≤ c.toNat && c.toNat != 0x7F) || (s.obeysControls && isSpacing c)

end State

/-- The state, and whether the character before was shown. A stretch of shown characters goes on
as in a text, even where spacing has started it inside a sequence. -/
structure Scan where
  state : State := .text
  showing : Bool := false
  deriving DecidableEq, Repr

namespace Scan

def reveals (s : Scan) (c : Char) : Bool := (if s.showing then .text else s.state).reveals c

/-- A sequence with spacing in it goes on after the stretch, unless a character beyond ASCII was
shown. -/
def next (s : Scan) (c : Char) : Scan :=
  if s.reveals c then ⟨if c.toNat < 0x80 then s.state else .text, true⟩
  else ⟨s.state.next c, false⟩

def visible : Scan → List Char → List Char
  | _, [] => []
  | s, c :: cs => if s.reveals c then c :: visible (s.next c) cs else visible (s.next c) cs

end Scan

def visible (cs : List Char) : List Char := Scan.visible {} cs

example : visible "a\x1b[38;5;1mré\x1b]8;;x\x1b\\d\x07\x7f\x1b(B.".toList = "aréd.".toList := by
  decide +kernel
example : visible "a\x1b[3\t1mb".toList = "a\t1mb".toList := by decide +kernel

end ByteCpu.Text.Control
