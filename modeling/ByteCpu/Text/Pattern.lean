import ByteCpu.Text.Alphanumeric
import ByteCpu.Text.Pattern.Class

/-!
Regular expressions: which texts are well-formed ones. What they match is not asked here. There
are no tables of Unicode classes and of upper and lower case, so that patterns which need them are
refused, and so are counted repetitions and patterns that are nested too deep.
-/

set_option autoImplicit false

namespace ByteCpu.Text.Pattern

def depthMax : Nat := 250

/-- What has been read of a group: its mode, the depths of its finished branches and of the parts of
the latest one, both latest first, and whether the latest part can be repeated. -/
structure Level where
  mode : Mode := {}
  branches : List Nat := []
  parts : List Nat := []
  repeatable : Bool := false
  deriving DecidableEq, Repr

namespace Level

def depth (l : Level) : Nat := joint (joint l.parts :: l.branches)

def push (l : Level) (d : Nat) : Level := { l with parts := d :: l.parts, repeatable := true }

def setMode (l : Level) (mode : Mode) : Level := { l.push 0 with mode, repeatable := false }

def branch (l : Level) : Level :=
  { l with branches := joint l.parts :: l.branches, parts := [], repeatable := false }

def repeat? (l : Level) : Option Level :=
  match l.parts with
  | d :: parts => if l.repeatable then some { l with parts := (d + 1) :: parts } else none
  | [] => none

end Level

def isGroupName : List Char → Bool
  | [] => false
  | c :: cs =>
    (c = '_' || isAlphabetic c) && cs.all fun c => "_.[]".toList.contains c || isAlphanumeric c

structure Scan where
  level : Level := {}
  outer : List Level := []
  names : List (List Char) := []
  deriving DecidableEq, Repr

namespace Scan

def push (s : Scan) (d : Nat) : Scan := { s with level := s.level.push d }

def enter (s : Scan) (mode : Mode) : Scan :=
  { s with level := { mode }, outer := s.level :: s.outer }

def enterNamed? (s : Scan) (cs : List Char) : Option (Scan × List Char) :=
  let name := cs.takeWhile (· != '>')
  match cs.drop name.length with
  | [] => none
  | _ :: rest =>
    if isGroupName name && !s.names.contains name then
      some ({ s.enter s.level.mode with names := name :: s.names }, rest)
    else none

def enterFlagged? (s : Scan) (cs : List Char) : Option (Scan × List Char) := do
  let flags := cs.takeWhile fun c => c != ')' && c != ':'
  let mode ← s.level.mode.set? flags
  match cs.drop flags.length with
  | ':' :: rest => return (s.enter mode, rest)
  | ')' :: rest =>
    if flags.isEmpty then none else return ({ s with level := s.level.setMode mode }, rest)
  | _ => none

def enter? (s : Scan) (cs : List Char) : Option (Scan × List Char) :=
  match s.level.mode.skip cs with
  | '?' :: 'P' :: '<' :: rest => s.enterNamed? rest
  | '?' :: '<' :: rest => s.enterNamed? rest
  | '?' :: rest => s.enterFlagged? rest
  | rest => some (s.enter s.level.mode, rest)

def leave? (s : Scan) : Option Scan :=
  match s.outer with
  | [] => none
  | around :: outer => some { s with level := around.push (s.level.depth + 1), outer }

def pushIf (s : Scan) (allowed : Bool) (rest : List Char) : Option (Scan × List Char) :=
  if allowed then some (s.push 0, rest) else none

/-- One part of a pattern, and what follows it. A question mark after a repetition belongs to it.
The number bounds the parts of a class. -/
def next? (s : Scan) (fuel : Nat) (c : Char) (cs : List Char) : Option (Scan × List Char) :=
  let mode := s.level.mode
  match c with
  | '|' => some ({ s with level := s.level.branch }, cs)
  | '*' | '+' | '?' => do
    let level ← s.level.repeat?
    return ({ s with level }, if cs.head? = some '?' then cs.drop 1 else cs)
  | '\x7b' => none
  | '(' => s.enter? cs
  | ')' => do return (← s.leave?, cs)
  | '[' => do
    let (depth, rest) ← readClass mode fuel {} [] (← openClass mode cs)
    return (s.push depth, rest)
  | '^' | '$' => some (s.push 0, cs)
  | '.' => s.pushIf (!mode.bytes) cs
  | '\\' => do
    match ← Escape.read mode cs with
    | (.literal c isByte, rest) => s.pushIf (mode.allows c isByte) rest
    | (.shorthand negated, rest) => s.pushIf (mode.allowsShorthand negated) rest
    | (.edge ofWord, rest) => s.pushIf (mode.bytes || !ofWord) rest
  | _ => s.pushIf (mode.allows c false) cs

def accepts : Nat → Scan → List Char → Bool
  | 0, _, _ => false
  | fuel + 1, s, cs =>
    match s.level.mode.skip cs with
    | [] => s.outer.isEmpty && s.level.depth ≤ depthMax
    | c :: cs =>
      match s.next? fuel c cs with
      | none => false
      | some (s, rest) => accepts fuel s rest

end Scan

def isWellFormed (cs : List Char) : Bool := Scan.accepts (cs.length + 1) {} cs

example : (["", "a.*|^(b)+?$", "[]a-z&&[^\\-[:alpha:]]]", "(?P<n>x)(?i)", "(?-u:\\d\u00E9)",
    "(?x)\\x4 1[a - z] # ("].map fun s => isWellFormed s.toList) = List.replicate 6 true := by
  decide +kernel

example : (["(", ")", "*a", "(?i)a", "[b-a]", "[^]", "a\x7b", "\\d", "\\q", "(?)", "\\", "(?-u).",
    "(?x) *"].map fun s => isWellFormed s.toList) = List.replicate 13 false := by decide +kernel

end ByteCpu.Text.Pattern
