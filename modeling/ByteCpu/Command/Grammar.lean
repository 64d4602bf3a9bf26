import ByteCpu.Files.Path
import ByteCpu.Text.Numeral
import ByteCpu.Text.Styled

/-!
The words of the command line: subcommands, flags and operands, what a command line can ask for,
and the errors of one that asks for nothing sensible.
-/

set_option autoImplicit false

namespace ByteCpu.Command

/-- An argument, not necessarily UTF-8. -/
abbrev Arg := List UInt8

def shown (a : Arg) : String := String.ofList (Text.Utf8.decodeLossy a)

inductive Subcommand where
  | run
  | check
  | disasm
  deriving DecidableEq, Repr

/-- What arguments are read for: a subcommand, or the program itself. -/
abbrev Scope := Option Subcommand

inductive Word where
  | subcommand (s : Subcommand)
  | help
  deriving DecidableEq, Repr

namespace Word

def all : List Word := [subcommand .run, subcommand .check, subcommand .disasm, help]

def name : Word → String
  | subcommand .run => "run"
  | subcommand .check => "check"
  | subcommand .disasm => "disasm"
  | help => "help"

def ofArg? (a : Arg) : Option Word := all.find? fun w => w.name.toUTF8.toList == a

end Word

inductive Flag where
  | minimal
  | maxSteps
  | trace
  | help
  | version
  deriving DecidableEq, Repr

namespace Flag

def long : Flag → String
  | minimal => "minimal"
  | maxSteps => "max-steps"
  | trace => "trace"
  | help => "help"
  | version => "version"

def short : Flag → Option Char
  | minimal => some 'm'
  | maxSteps => none
  | trace => some 't'
  | help => some 'h'
  | version => some 'V'

def valueName : Flag → Option String
  | maxSteps => some "<N>"
  | _ => none

def display (f : Flag) : String :=
  "--" ++ f.long ++ (f.valueName.map (" " ++ ·)).getD ""

end Flag

namespace Scope

def flags : Scope → List Flag
  | none => [.help, .version]
  | some .run => [.minimal, .maxSteps, .trace, .help]
  | some _ => [.help]

def operand : Scope → String
  | none => "[PATH]"
  | some _ => "<NAME>"

def long? (scope : Scope) (name : String) : Option Flag := scope.flags.find? (·.long == name)

def short? (scope : Scope) (c : Char) : Option Flag := scope.flags.find? (·.short == some c)

end Scope

structure Options where
  minimal : Bool := false
  maxSteps : Option Nat := none
  trace : Bool := false
  deriving DecidableEq, Repr

inductive Request where
  | welcome
  | run (path : Path) (options : Options)
  | check (path : Path)
  | disasm (path : Path)
  deriving DecidableEq, Repr

inductive Topic where
  | of (scope : Scope)
  | help
  deriving DecidableEq, Repr

inductive UsageError where
  | unexpectedArgument (arg : String)
  | unexpectedValue (value : String) (flag : Flag)
  | missingFlagValue (flag : Flag)
  | emptyOperand (scope : Scope)
  | repeated (flag : Flag)
  | invalidValue (value : String) (flag : Flag) (cause : Text.NumeralError)
  | invalidUtf8
  | unrecognizedSubcommand (name : String)
  | missingOperand
  deriving DecidableEq, Repr

namespace UsageError

def inQuotes (p : Text.Piece) : Text.Styled := ⟨[.plain "'", p, .plain "'"]⟩

def valueRequired (what : String) : Text.Styled :=
  .ofString "a value is required for " ++ inQuotes (.invalid what) ++
    .ofString " but none was supplied"

def message : UsageError → Text.Styled
  | unexpectedArgument arg =>
    .ofString "unexpected argument " ++ inQuotes (.invalid arg) ++ .ofString " found"
  | unexpectedValue value flag =>
    .ofString "unexpected value " ++ inQuotes (.invalid value) ++ .ofString " for " ++
      inQuotes (.literal flag.display) ++ .ofString " found; no more were expected"
  | missingFlagValue flag => valueRequired flag.display
  | emptyOperand scope => valueRequired scope.operand
  | repeated flag =>
    .ofString "the argument " ++ inQuotes (.invalid flag.display) ++
      .ofString " cannot be used multiple times"
  | invalidValue value flag cause =>
    .ofString "invalid value " ++ inQuotes (.invalid value) ++ .ofString " for " ++
      inQuotes (.literal flag.display) ++ .ofString (": " ++ cause.message)
  | invalidUtf8 => .ofString "invalid UTF-8 was detected in one or more arguments"
  | unrecognizedSubcommand name =>
    .ofString "unrecognized subcommand " ++ inQuotes (.invalid name)
  | missingOperand => .ofString "the following required arguments were not provided:"

def line (e : UsageError) (coloured : Bool) : String :=
  let report : Text.Styled := ⟨[.error "error:", .plain " "]⟩ ++ e.message
  String.ofList ((report.print coloured).toList.takeWhile (· != '\n')) ++ "\n"

end UsageError

inductive Stop where
  | help (topic : Topic)
  | version
  | usage (e : UsageError)
  deriving DecidableEq, Repr

end ByteCpu.Command
