/-!
Levels of log events, from the most severe to the most detailed.
-/

set_option autoImplicit false

namespace ByteCpu.Log

inductive Level where
  | error
  | warn
  | info
  | debug
  | trace
  deriving DecidableEq, Repr

namespace Level

def rank : Level → Nat
  | error => 1
  | warn => 2
  | info => 3
  | debug => 4
  | trace => 5

def shows (threshold level : Level) : Bool := level.rank ≤ threshold.rank

def column : Level → String
  | error => "ERROR"
  | warn => " WARN"
  | info => " INFO"
  | debug => "DEBUG"
  | trace => "TRACE"

end Level
end ByteCpu.Log
