import ByteCpu.Command.Grammar
import ByteCpu.Text.Similarity

/-!
Reading a command line from left to right. The value of the latest operand or flag is held back
and checked only when another known flag or operand follows or the line ends; an argument that
nothing can be made of is reported at once, whatever is held back. `Request.read` follows the rules
of clap 4.5 for letters in one argument, values after an equals sign, two lone dashes, the help
subcommand, misspelt subcommands and which of several errors is reported.
-/

set_option autoImplicit false

namespace ByteCpu.Command

inductive Pending where
  | operand (value : Arg)
  | steps (value : Option Arg)
  deriving DecidableEq, Repr

/-- What has been read in a scope. After two lone dashes, `trailing`, all arguments are
operands. -/
structure Reading where
  options : Options := {}
  path : Option Path := none
  pending : Option Pending := none
  trailing : Bool := false
  deriving DecidableEq, Repr

namespace Reading

def fail {α : Type} (e : UsageError) : Except Stop α := .error (.usage e)

def setSteps (r : Reading) (value : Arg) : Except Stop Reading :=
  if r.options.maxSteps.isSome then fail (.repeated .maxSteps)
  else
    match Text.Utf8.decode? value with
    | none => fail .invalidUtf8
    | some cs =>
      match Text.readWhole Text.wordMax cs with
      | .ok n => .ok { r with options := { r.options with maxSteps := some n } }
      | .error cause => fail (.invalidValue (String.ofList cs) .maxSteps cause)

def settle (scope : Scope) (r : Reading) : Except Stop Reading :=
  let settled := { r with pending := none }
  match r.pending with
  | none => .ok r
  | some (.operand value) =>
    if value = [] then fail (.emptyOperand scope) else .ok { settled with path := some ⟨value⟩ }
  | some (.steps none) => fail (.missingFlagValue .maxSteps)
  | some (.steps (some value)) => settled.setSteps value

def flag (scope : Scope) (r : Reading) (f : Flag) : Except Stop Reading := do
  let r ← r.settle scope
  match f with
  | .help => .error (.help (.of scope))
  | .version => .error .version
  | .maxSteps => .ok { r with pending := some (.steps none) }
  | .minimal =>
    if r.options.minimal then fail (.repeated f)
    else .ok { r with options := { r.options with minimal := true } }
  | .trace =>
    if r.options.trace then fail (.repeated f)
    else .ok { r with options := { r.options with trace := true } }

def long (scope : Scope) (r : Reading) (body : Arg) : Except Stop Reading :=
  let name := body.takeWhile (· != 0x3D)
  let value := (body.drop name.length).tail?
  match (Text.Utf8.decode? name).bind fun cs => scope.long? (String.ofList cs), value with
  | none, _ => fail (.unexpectedArgument ("--" ++ shown name))
  | some .maxSteps, some value => do (← r.settle scope).setSteps value
  | some f, some value => fail (.unexpectedValue (shown value) f)
  | some f, none => r.flag scope f

def letters (scope : Scope) : Reading → List (Option Char) → Except Stop Reading
  | r, [] => .ok r
  | _, none :: cs =>
    fail (.unexpectedArgument (String.ofList ('-' :: '\uFFFD' :: cs.map (·.getD '\uFFFD'))))
  | r, some c :: cs =>
    match scope.short? c with
    | none => fail (.unexpectedArgument (String.ofList ['-', c]))
    | some f => do letters scope (← r.flag scope f) cs

def hasOperand (r : Reading) : Bool :=
  r.path.isSome || match r.pending with
    | some (.operand _) => true
    | _ => false

/-- An operand too many. For the program itself it may be meant as a subcommand. -/
def surplus (scope : Scope) (trailing : Bool) (a : Arg) : UsageError :=
  let word := Text.Utf8.decodeLossy a
  let misspelt := Word.all.any fun w => Text.Similarity.resembles word w.name.toList
  let exact := trailing && (Word.ofArg? a).isSome
  if scope.isNone && misspelt && !exact then .unrecognizedSubcommand (shown a)
  else .unexpectedArgument (shown a)

def operand (scope : Scope) (r : Reading) (a : Arg) : Except Stop Reading :=
  if r.hasOperand then fail (surplus scope r.trailing a)
  else do
    let r ← r.settle scope
    return { r with pending := some (.operand a) }

def take (scope : Scope) (r : Reading) (a : Arg) : Except Stop Reading :=
  if r.trailing then r.operand scope a
  else
    match a with
    | [0x2D, 0x2D] => .ok { r with trailing := true }
    | 0x2D :: 0x2D :: body => r.long scope body
    | 0x2D :: b :: bs => letters scope r (Text.Utf8.scan (b :: bs))
    | _ =>
      match r.pending with
      | some (.steps none) => .ok { r with pending := some (.steps (some a)) }
      | _ => r.operand scope a

end Reading

def Subcommand.request (s : Subcommand) (path : Path) (options : Options) : Request :=
  match s with
  | .run => .run path options
  | .check => .check path
  | .disasm => .disasm path

def readSubcommand (s : Subcommand) : Reading → List Arg → Except Stop Request
  | r, [] => do
    let r ← r.settle (some s)
    match r.path with
    | none => Reading.fail .missingOperand
    | some path => return s.request path r.options
  | r, a :: rest => do readSubcommand s (← r.take (some s) a) rest

def helpAbout : Topic → List Arg → Stop
  | topic, [] => .help topic
  | .of none, a :: rest =>
    match Word.ofArg? a with
    | some (.subcommand s) => helpAbout (.of (some s)) rest
    | some .help => helpAbout .help rest
    | none => .usage (.unrecognizedSubcommand (shown a))
  | _, a :: _ => .usage (.unrecognizedSubcommand (shown a))

/-- The arguments of the program itself. A subcommand may follow its operand, and errors of the
subcommand's arguments come first. -/
def readProgram : Reading → List Arg → Except Stop Request
  | r, [] => do
    let r ← r.settle none
    match r.path with
    | none => return .welcome
    | some path => return .run path {}
  | r, a :: rest =>
    match if r.trailing then none else Word.ofArg? a with
    | some .help => .error (helpAbout (.of none) rest)
    | some (.subcommand s) => do
      let request ← readSubcommand s {} rest
      let _ ← r.settle none
      return request
    | none => do readProgram (← r.take none a) rest

def Request.read (args : List Arg) : Except Stop Request := readProgram {} args

end ByteCpu.Command
