import ByteCpu.Log.Directive

/-!
Log filters, which are lists of directives: which events they show, and the lines that come of
them.
-/

set_option autoImplicit false

namespace ByteCpu.Log

structure Filter where
  directives : List Directive
  deriving DecidableEq, Repr

namespace Filter

def upTo (l : Level) : Filter := ⟨[{ threshold := some l }]⟩

def silent : Filter := ⟨[]⟩

def shows (f : Filter) (e : Event) : Bool :=
  (Directive.decisive (f.directives.filter (·.concerns e))).any (·.admits e.level)

/-- Whether a level is wanted under a target. The fields of the events are not known then, and all
directives about the target count. -/
def wants (f : Filter) (target : String) (l : Level) : Bool :=
  (Directive.decisive (f.directives.filter (·.isAbout target))).any (·.admits l)

/-- The most detailed events are made only where their level is wanted. -/
def admits (f : Filter) (e : Event) : Bool :=
  f.shows e && (e.level != .trace || f.wants e.target .trace)

def emit (f : Filter) (e : Event) : List Event := if f.admits e then [e] else []

theorem emit_eq_filter (f : Filter) (e : Event) : f.emit e = [e].filter f.admits := by
  by_cases h : f.admits e <;> simp [emit, h]

def render (f : Filter) (es : List Event) : String :=
  String.join ((es.filter f.admits).map (·.render ++ "\n"))

theorem shows_upTo (l : Level) (e : Event) : (upTo l).shows e = l.shows e.level := by
  simp [shows, upTo, Directive.decisive, Directive.concerns, Directive.isAbout, Directive.admits]

theorem wants_upTo (l k : Level) (target : String) : (upTo l).wants target k = l.shows k := by
  simp [wants, upTo, Directive.decisive, Directive.isAbout, Directive.admits]

theorem admits_upTo (l : Level) (e : Event) : (upTo l).admits e = l.shows e.level := by
  simp only [admits, shows_upTo, wants_upTo]
  cases e <;> simp [Event.level]

example : (Filter.mk [⟨"", none, some .debug⟩, ⟨"", some "pc", none⟩]).admits (.running 0) =
    false := by decide +kernel

end Filter
end ByteCpu.Log
