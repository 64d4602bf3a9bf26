import ByteCpu.Log.Filter
import ByteCpu.Text.Blank
import ByteCpu.Text.Numeral
import ByteCpu.Text.Pattern
import ByteCpu.Text.Utf8

/-!
Log filters written as text: entries between commas, each a level, a target, or a target and a
level with an equals sign between them. Brackets after the target, or in its place, hold the name of
a span and, in braces, that of a field with or without a value: `target[span{field=value}]=level`.
`Filter.read?` follows the environment filter of tracing-subscriber 0.3.
-/

set_option autoImplicit false

namespace ByteCpu.Log

def readLevel (cs : List Char) : Option (Option Level) :=
  match Text.readWhole Text.wordMax cs with
  | .ok n => [none, some .error, some .warn, some .info, some .debug, some .trace][n]?
  | .error _ =>
    match String.ofList (cs.map Char.toLower) with
    | "off" => some none
    | "error" => some (some .error)
    | "warn" => some (some .warn)
    | "info" => some (some .info)
    | "debug" => some (some .debug)
    | "trace" => some (some .trace)
    | _ => none

/-- A directive, or a condition that no event here meets: one on a span or on the value of a
field. -/
inductive Clause where
  | directive (d : Directive)
  | unmet
  deriving DecidableEq, Repr

def Clause.directive? : Clause → Option Directive
  | directive d => some d
  | unmet => none

structure FieldMatch where
  name : List Char
  value : Option (List Char)
  deriving DecidableEq, Repr

namespace FieldMatch

def isUnsignedNumber (cs : List Char) : Bool :=
  let whole := cs.takeWhile Char.isDigit
  let rest := cs.drop whole.length
  let (fraction, rest) := match rest with
    | '.' :: rest => (rest.takeWhile Char.isDigit, rest.dropWhile Char.isDigit)
    | _ => ([], rest)
  let isExponent := fun (cs : List Char) =>
    let digits := match cs with
      | '+' :: cs | '-' :: cs => cs
      | _ => cs
    !digits.isEmpty && digits.all Char.isDigit
  ["inf", "infinity", "nan"].contains (String.ofList (cs.map Char.toLower)) ||
    (!(whole ++ fraction).isEmpty && match rest with
      | [] => true
      | c :: rest => c.toLower = 'e' && isExponent rest)

/-- A value is a pattern. Of numbers only those with a plus sign are not patterns as well. -/
def isValue : List Char → Bool
  | '+' :: cs => isUnsignedNumber cs
  | cs => Text.Pattern.isWellFormed cs

/-- What follows a second equals sign is passed over. -/
def read? (cs : List Char) : Option FieldMatch :=
  match cs.splitOn '=' with
  | name :: value :: _ => if isValue value then some ⟨name, some value⟩ else none
  | _ => some ⟨cs, none⟩

end FieldMatch

/-- An entry as it is written, and without the blanks at its ends. Its parts are found in the body
and cut at the same bytes out of the whole: blanks in front shift them, and blanks at the end belong
to the last part. -/
structure Entry where
  whole : List UInt8
  body : List Char
  deriving DecidableEq, Repr

namespace Entry

def ofText (cs : List Char) : Entry := ⟨(String.ofList cs).toUTF8.toList, Text.trim cs⟩

def part? (e : Entry) (start stop : Nat) : Option (List Char) :=
  Text.Utf8.decode? ((e.whole.drop start).take (stop - start))

def rest? (e : Entry) (start : Nat) : Option (List Char) := Text.Utf8.decode? (e.whole.drop start)

def level? (e : Entry) (start : Nat) : Option (Option Level) := do
  let text ← e.rest? start
  if text.isEmpty then some (some .trace) else readLevel text

def levelAfter? (e : Entry) (start : Nat) : List Char → Option (Option Level)
  | [] => some (some .trace)
  | '=' :: _ => e.level? (start + 1)
  | _ => none

def bracket? (e : Entry) (target : List Char) (start : Nat) (cs : List Char) : Option Clause := do
  let span := cs.takeWhile fun c => c != ']' && c != '\x7b'
  let stop := start + Text.utf8Length span
  let _ ← e.part? start stop
  match cs.drop span.length with
  | ']' :: cs =>
    let _ ← e.levelAfter? (stop + 1) cs
    return .unmet
  | '\x7b' :: cs =>
    let text := cs.takeWhile (· != '\x7d')
    let textStop := stop + 1 + Text.utf8Length text
    let field ← FieldMatch.read? (← e.part? (stop + 1) textStop)
    match cs.drop text.length with
    | '\x7d' :: ']' :: cs =>
      let threshold ← e.levelAfter? (textStop + 2) cs
      if text.isEmpty then none
      else if span.isEmpty && field.value.isNone then
        return .directive ⟨String.ofList target, some (String.ofList field.name), threshold⟩
      else return .unmet
    | _ => none
  | _ => none

def isNameStart (c : Char) : Bool := "-:_".toList.contains c || Text.isAlphanumeric c

/-- From the first character on, which starts a name unless it is a bracket. What is no level is a
target under which everything is shown. -/
def read? (e : Entry) : Option Clause := do
  match e.body with
  | [] => none
  | '[' :: cs => e.bracket? [] 1 cs
  | c :: cs =>
    if !isNameStart c then none
    else
      let name := c :: cs.takeWhile fun c => c != '=' && c != '['
      let stop := Text.utf8Length name
      match e.body.drop name.length with
      | [] =>
        let text ← e.rest? 0
        match readLevel text with
        | some threshold => return .directive { threshold }
        | none => return .directive { target := String.ofList text, threshold := some .trace }
      | '=' :: _ =>
        let target ← e.part? 0 stop
        return .directive { target := String.ofList target, threshold := ← e.level? (stop + 1) }
      | _ :: cs => e.bracket? (← e.part? 0 stop) (stop + 1) cs

end Entry

/-- Empty entries are passed over. Without any, errors alone are shown; one that cannot be read
makes the whole filter invalid. -/
def Filter.read? (cs : List Char) : Option Filter :=
  let entries := ((cs.splitOn ',').filter (!·.isEmpty)).map Entry.ofText
  match entries.mapM (·.read?) with
  | none => none
  | some [] => some (.upTo .error)
  | some clauses => some ⟨clauses.filterMap (·.directive?)⟩

example : ((Filter.read? "warn,ls8=debug,ls8::machine=off,[\x7bpc\x7d]".toList).map fun f =>
    [f.admits (.loaded "p" 0), f.admits (.halted 0), f.admits .limitMalformed,
      f.admits (.running 0)]) = some [true, false, true, false] := by decide +kernel

example : Filter.read? " debug".toList = some ⟨[⟨" debug", none, some .trace⟩]⟩ := by decide +kernel

end ByteCpu.Log
