import ByteCpu.Text.Blank

/-!
How a part of a regular expression is read. Flags change it for the rest of a group.
-/

set_option autoImplicit false

namespace ByteCpu.Text.Pattern

/-- Both cases of a letter alike, bytes in place of characters, and blanks and comments passed
over. -/
structure Mode where
  fold : Bool := false
  bytes : Bool := false
  spaced : Bool := false
  deriving DecidableEq, Repr

namespace Mode

def setting (flags : List Char) (c : Char) (old : Bool) : Bool :=
  if (flags.takeWhile (· != '-')).contains c then true else if flags.contains c then false else old

def set? (m : Mode) (flags : List Char) : Option Mode :=
  if flags.all ("imsUuRx-".toList.contains ·) ∧ flags.Nodup ∧ flags.getLast? ≠ some '-' then
    some {
      fold := setting flags 'i' m.fold
      bytes := !setting flags 'u' (!m.bytes)
      spaced := setting flags 'x' m.spaced }
  else none

def dropSpace (inComment : Bool) : List Char → List Char
  | [] => []
  | c :: cs =>
    if inComment then dropSpace (c != '\n') cs
    else if c = '#' then dropSpace true cs
    else if isBlank c then dropSpace false cs
    else c :: cs

def skip (m : Mode) (cs : List Char) : List Char := if m.spaced then dropSpace false cs else cs

/-- A look ahead to the next character. It passes over blanks and one hash, but not over what
follows the hash. -/
def firstBeyond (hashSeen : Bool) : List Char → Option Char
  | [] => none
  | c :: cs =>
    if isBlank c then firstBeyond hashSeen cs
    else if c = '#' && !hashSeen then firstBeyond true cs
    else some c

def peek? (m : Mode) (cs : List Char) : Option Char :=
  if m.spaced then firstBeyond false cs else cs.head?

/-- Case needs tables that there are none of. The byte of an escape has to be ASCII. -/
def allows (m : Mode) (c : Char) (isByte : Bool) : Bool :=
  if m.bytes then !isByte || c.toNat < 0x80 else !m.fold

def allowsMember (m : Mode) (c : Char) : Bool := if m.bytes then c.toNat < 0x80 else !m.fold

/-- There are no tables of Unicode digits, spaces and words, and the bytes that are none of these
are not ASCII alone. -/
def allowsShorthand (m : Mode) (negated : Bool) : Bool := m.bytes && !negated

end Mode
end ByteCpu.Text.Pattern
