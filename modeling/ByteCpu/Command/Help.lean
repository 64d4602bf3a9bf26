import ByteCpu.Command.Grammar

/-!
The help pages, and the texts of the version and of the welcome.
-/

set_option autoImplicit false

namespace ByteCpu.Command

def versionNumber : String := "0.1.0"

structure Page where
  about : String
  usage : Text.Styled
  sections : List (String × List (Text.Styled × String))
  deriving DecidableEq, Repr

namespace Page

/-- Explanations start two columns after the longest term of their section. -/
def renderSection (title : String) (entries : List (Text.Styled × String)) : Text.Styled :=
  let width := (entries.map (·.1.width)).foldl max 0
  let entry := fun (e : Text.Styled × String) =>
    let gap := String.ofList (List.replicate (width - e.1.width) ' ')
    Text.Styled.ofString "  " ++ e.1 ++ .ofString (gap ++ "  " ++ e.2 ++ "\n")
  (entries.map entry).foldl (· ++ ·) ⟨[.plain "\n", .heading (title ++ ":"), .plain "\n"]⟩

def render (p : Page) : Text.Styled :=
  (p.sections.map fun s => renderSection s.1 s.2).foldl (· ++ ·)
    (⟨[.plain (p.about ++ "\n\n"), .heading "Usage:", .plain " "]⟩ ++ p.usage ++ .ofString "\n")

end Page

def Word.about : Word → String
  | .subcommand .run => "Run a `.ls8` program, printing `PRN` output to stdout"
  | .subcommand .check => "Check that a `.ls8` file loads without running it"
  | .subcommand .disasm => "Print a disassembly listing of a `.ls8` file"
  | .help => "Print this message or the help of the given subcommand(s)"

def Flag.about : Flag → String
  | .minimal => "Produce minimal output, suited for blackbox tests"
  | .maxSteps => "Stop with an error after this many instructions"
  | .trace => "Log machine state before every instruction"
  | .help => "Print help"
  | .version => "Print version"

def Flag.term (f : Flag) : Text.Styled :=
  let short := match f.short with
    | some c => [.literal (String.ofList ['-', c]), .plain ", "]
    | none => [.plain "    "]
  let value := (f.valueName.map fun name => Text.Piece.plain (" " ++ name)).toList
  ⟨short ++ [.literal ("--" ++ f.long)] ++ value⟩

def Scope.operandAbout : Scope → String
  | none => "Quickly provide a `.ls8` file to run"
  | some .run => "`.ls8` file to run"
  | some .check => "File to check"
  | some .disasm => "File to disassemble"

def usageLine (names rest : String) : Text.Styled := ⟨[.literal names, .plain (" " ++ rest)]⟩

def Scope.usage : Scope → Text.Styled
  | none => usageLine "ls8" "[PATH] [COMMAND]"
  | some .run => usageLine "ls8 run" "[OPTIONS] <NAME>"
  | some .check => usageLine "ls8 check" "<NAME>"
  | some .disasm => usageLine "ls8 disasm" "<NAME>"

def Scope.about : Scope → String
  | none => "ls8 runs and inspects programs for the LS-8 8-bit virtual CPU"
  | some s => (Word.subcommand s).about

def commandSection : String × List (Text.Styled × String) :=
  ("Commands", Word.all.map fun w => (⟨[.literal w.name]⟩, w.about))

def argumentSection (argument about : String) : String × List (Text.Styled × String) :=
  ("Arguments", [(.ofString argument, about)])

def Topic.page : Topic → Page
  | .of scope => {
      about := scope.about
      usage := scope.usage
      sections :=
        (if scope.isNone then [commandSection] else []) ++
          [argumentSection scope.operand scope.operandAbout,
            ("Options", scope.flags.map fun f => (f.term, f.about))] }
  | .help => {
      about := Word.help.about
      usage := usageLine "ls8 help" "[COMMAND]..."
      sections := [argumentSection "[COMMAND]..." "Print help for the subcommand(s)"] }

def versionText : String := "ls8 " ++ versionNumber ++ "\n"

def welcomeText : String :=
  "\n~ ls8 v" ++ versionNumber ++ " ~\n\n" ++
    "Welcome to ls8, an interpreter for the LS-8 8-bit virtual CPU.\n" ++
    "Please use `-h` or `--help` to access the usage instructions and documentation.\n\n"

end ByteCpu.Command
