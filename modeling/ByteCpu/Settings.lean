import ByteCpu.Log.FilterText
import ByteCpu.Text.Blank
import ByteCpu.Text.Utf8

/-!
Settings from environment variables. They are read once, at the start of a session, and later
changes of the variables do not show.
-/

set_option autoImplicit false

namespace ByteCpu

structure Environment where
  maxSteps : Option (List UInt8) := none
  trace : Option (List UInt8) := none
  logFilter : Option (List UInt8) := none
  deriving DecidableEq, Repr

def Environment.set (vs : Environment) (name : String) (value : Option (List UInt8)) :
    Environment :=
  match name with
  | "LS8_MAX_STEPS" => { vs with maxSteps := value }
  | "LS8_TRACE" => { vs with trace := value }
  | "RUST_LOG" => { vs with logFilter := value }
  | _ => vs

inductive StepSetting where
  | unset
  | limit (n : Nat)
  | malformed
  deriving DecidableEq, Repr

def StepSetting.read : Option (List UInt8) → StepSetting
  | none => .unset
  | some bytes =>
    match Text.Utf8.decode? bytes with
    | none => .malformed
    | some cs =>
      match Text.readWhole Text.wordMax (Text.trim cs) with
      | .ok n => .limit n
      | .error _ => .malformed

structure Settings where
  maxSteps : StepSetting
  trace : Bool
  deriving DecidableEq, Repr

namespace Settings

def read (vs : Environment) : Settings :=
  ⟨StepSetting.read vs.maxSteps, vs.trace = some "1".toUTF8.toList⟩

def stepLimit (s : Settings) : Option Nat × List Log.Event :=
  match s.maxSteps with
  | .unset => (none, [])
  | .limit n => (some n, [])
  | .malformed => (none, [.limitMalformed])

end Settings

def traceFilter : Log.Filter := ⟨[{ target := "ls8", threshold := some .trace }]⟩

/-- Tracing comes before the filter variable; where that is absent or invalid, warnings and errors
are shown. -/
def Environment.filter (vs : Environment) (trace : Bool) : Log.Filter :=
  if trace || (Settings.read vs).trace then traceFilter
  else ((vs.logFilter.bind Text.Utf8.decode?).bind Log.Filter.read?).getD (.upTo .warn)

/-- Variables that may change, the settings read from them, and whether output is minimal. -/
structure Session where
  environment : Environment := {}
  settings : Option Settings := none
  minimal : Bool := false
  deriving DecidableEq, Repr

namespace Session

inductive Call where
  | init
  | maxSteps
  | isTraceEnabled
  | setMinimal (on : Bool)
  | isMinimal
  | assign (name : String) (value : Option (List UInt8))
  deriving DecidableEq, Repr

inductive Answer where
  | done
  | steps (limit : Option Nat)
  | flag (on : Bool)
  deriving DecidableEq, Repr

/-- Settings are read exactly once, and before they are used. -/
inductive Misuse where
  | notInitialized
  | initializedTwice
  deriving DecidableEq, Repr

def Misuse.message : Misuse → String
  | notInitialized => "tried to access environment state before initialization"
  | initializedTwice => "tried to initialize environment state multiple times"

structure Reply where
  session : Session
  answer : Except Misuse Answer
  log : List Log.Event := []

def call (s : Session) : Call → Reply
  | .init =>
    match s.settings with
    | some _ => ⟨s, .error .initializedTwice, []⟩
    | none => ⟨{ s with settings := some (Settings.read s.environment) }, .ok .done, []⟩
  | .maxSteps =>
    match s.settings with
    | none => ⟨s, .error .notInitialized, []⟩
    | some settings => ⟨s, .ok (.steps settings.stepLimit.1), settings.stepLimit.2⟩
  | .isTraceEnabled =>
    match s.settings with
    | none => ⟨s, .error .notInitialized, []⟩
    | some settings => ⟨s, .ok (.flag settings.trace), []⟩
  | .setMinimal on => ⟨{ s with minimal := on }, .ok (.flag s.minimal), []⟩
  | .isMinimal => ⟨s, .ok (.flag s.minimal), []⟩
  | .assign name value =>
    ⟨{ s with environment := s.environment.set name value }, .ok .done, []⟩

end Session
end ByteCpu
