import ByteCpu.Text.Pattern.Escape

/-!
Classes of regular expressions, between brackets: characters, ranges, named classes, classes in
classes, and operations on what stands before and after them.
-/

set_option autoImplicit false

namespace ByteCpu.Text.Pattern

/-- The depth of parts taken together: that of a single part, or one more than the deepest. -/
def joint : List Nat → Nat
  | [] => 0
  | [d] => d
  | ds => ds.foldl max 0 + 1

/-- What has been read of a class: the depths of its members since the latest operation, that of
all before the operation, and whether only dashes have been read. -/
structure Members where
  depths : List Nat := []
  before : Option Nat := none
  leading : Bool := true
  deriving DecidableEq, Repr

namespace Members

def depth (ms : Members) : Nat :=
  match ms.before with
  | none => joint ms.depths
  | some d => max d (joint ms.depths) + 1

def push (ms : Members) (d : Nat) : Members :=
  { ms with depths := d :: ms.depths, leading := false }

def operate (ms : Members) : Members := ⟨[], some ms.depth, false⟩

end Members

def readMember (m : Mode) : List Char → Option (Option Char × List Char)
  | [] => none
  | '\\' :: cs =>
    match Escape.read m cs with
    | some (.literal c _, rest) => if m.allowsMember c then some (some c, rest) else none
    | some (.shorthand negated, rest) =>
      if m.allowsShorthand negated then some (none, rest) else none
    | _ => none
  | c :: cs => if m.allowsMember c then some (some c, cs) else none

/-- A character, a shorthand or a range. A dash stands for itself before a closing bracket and
before another dash. -/
def readItem (m : Mode) (cs : List Char) : Option (List Char) := do
  let (first, rest) ← readMember m cs
  match m.skip rest with
  | '-' :: after =>
    if m.peek? after = some ']' ∨ m.peek? after = some '-' then some ('-' :: after)
    else
      match first, ← readMember m (m.skip after) with
      | some low, (some high, rest) => if low ≤ high then some rest else none
      | _, _ => none
  | rest => some rest

def classNames : List String :=
  ["alnum", "alpha", "ascii", "blank", "cntrl", "digit", "graph", "lower", "print", "punct",
    "space", "upper", "word", "xdigit"]

def readNamed? (cs : List Char) : Option (Bool × List Char) :=
  let forms := classNames.flatMap fun name =>
    [(false, "[:" ++ name ++ ":]"), (true, "[:^" ++ name ++ ":]")]
  (forms.find? (·.2.toList.isPrefixOf cs)).map fun form => (form.1, cs.drop form.2.length)

/-- What follows an opening bracket, without the circumflex that negates. No negated class of bytes
is ASCII alone. -/
def openClass (m : Mode) (cs : List Char) : Option (List Char) :=
  match m.skip cs with
  | '^' :: rest => if m.bytes then none else some rest
  | rest => some rest

/-- The depth of a class and what follows it, given what has been read of it and of the classes
around it. Dashes at its start, or else a closing bracket, stand for themselves. The first argument
bounds the number of its parts. -/
def readClass (m : Mode) : Nat → Members → List Members → List Char → Option (Nat × List Char)
  | 0, _, _, _ => none
  | fuel + 1, ms, outer, cs =>
    match m.skip cs with
    | [] => none
    | c :: cs =>
      if ms.leading && (c = '-' || (c = ']' && ms.depths.isEmpty)) then
        if m.allowsMember c then readClass m fuel { ms.push 0 with leading := c = '-' } outer cs
        else none
      else if c = ']' then
        match outer with
        | [] => some (ms.depth + 1, cs)
        | around :: outer => readClass m fuel (around.push (ms.depth + 1)) outer cs
      else if c = '[' then
        match readNamed? (c :: cs) with
        | some (negated, rest) =>
          if m.allowsMember 'a' && !(m.bytes && negated) then
            readClass m fuel (ms.push 0) outer rest
          else none
        | none => do readClass m fuel {} (ms :: outer) (← openClass m cs)
      else if (c = '&' || c = '-' || c = '~') && cs.head? = some c then
        readClass m fuel ms.operate outer (cs.drop 1)
      else do readClass m fuel (ms.push 0) outer (← readItem m (c :: cs))

end ByteCpu.Text.Pattern
