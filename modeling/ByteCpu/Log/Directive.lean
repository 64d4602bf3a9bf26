import ByteCpu.Log.Event

/-!
Directives of log filters: up to which level events are shown, for the events of some targets and
with some field. Of several directives for an event the most specific decides.
-/

set_option autoImplicit false

namespace ByteCpu.Log

/-- The empty target stands for every event; without a level nothing is shown. -/
structure Directive where
  target : String := ""
  field : Option String := none
  threshold : Option Level
  deriving DecidableEq, Repr

namespace Directive

def isAbout (d : Directive) (target : String) : Bool := d.target.toList.isPrefixOf target.toList

def concerns (d : Directive) (e : Event) : Bool :=
  d.isAbout e.target && d.field.all e.fields.contains

def admits (d : Directive) (l : Level) : Bool := d.threshold.any (·.shows l)

def fieldAtMost : Option String → Option String → Bool
  | none, _ => true
  | some _, none => false
  | some a, some b => !decide (b < a)

/-- At most as specific: the length of the target comes before the field. -/
def atMost (a b : Directive) : Bool :=
  a.target.length < b.target.length ||
    (a.target.length == b.target.length && fieldAtMost a.field b.field)

def decisive (ds : List Directive) : Option Directive :=
  ds.foldl (fun best d => if best.all (·.atMost d) then some d else best) none

end Directive
end ByteCpu.Log
