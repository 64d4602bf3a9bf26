import ByteCpu.Settings

/-!
Sessions as sequences of calls, misuses included. The main statement is that the first
initialization reads the variables, that every later answer is from what it has read, and that the
calls about minimal output have no part in this and take none from it.
-/

set_option autoImplicit false

namespace ByteCpu.Session

def after (s : Session) (cs : List Call) : Session := cs.foldl (fun s c => (s.call c).session) s

def start (environment : Environment) (minimal : Bool) : Session := { environment, minimal }

structure Exchange where
  call : Call
  answer : Except Misuse Answer
  log : List Log.Event

def transcript : Session → List Call → List Exchange
  | _, [] => []
  | s, c :: cs => ⟨c, (s.call c).answer, (s.call c).log⟩ :: (s.call c).session.transcript cs

def Call.isOutput : Call → Bool
  | setMinimal _ | isMinimal => true
  | init | maxSteps | isTraceEnabled | assign .. => false

/-- The value of a variable after calls: that of the latest assignment to it. -/
def lastValue (name : String) : Option (List UInt8) → List Call → Option (List UInt8)
  | value, [] => value
  | value, .assign n v :: cs => lastValue name (if n = name then v else value) cs
  | value, .init :: cs | value, .maxSteps :: cs | value, .isTraceEnabled :: cs
  | value, .setMinimal _ :: cs | value, .isMinimal :: cs => lastValue name value cs

/-- How a session answers before it is initialized. -/
structure Unread (s : Session) : Prop where
  init : s.call .init = ⟨{ s with settings := some (Settings.read s.environment) }, .ok .done, []⟩
  maxSteps : s.call .maxSteps = ⟨s, .error .notInitialized, []⟩
  isTraceEnabled : s.call .isTraceEnabled = ⟨s, .error .notInitialized, []⟩

/-- How a session answers that has read its settings. -/
structure Settled (s : Session) (setting : StepSetting) (trace : Bool) : Prop where
  init : s.call .init = ⟨s, .error .initializedTwice, []⟩
  maxSteps : s.call .maxSteps =
    ⟨s, .ok (.steps (match setting with
        | .limit n => some n
        | .unset | .malformed => none)),
      if setting = .malformed then [.limitMalformed] else []⟩
  isTraceEnabled : s.call .isTraceEnabled = ⟨s, .ok (.flag trace), []⟩

theorem unread {s : Session} (fresh : s.settings = none) : Unread s := by
  constructor <;> rw [call, fresh]

theorem settled {s : Session} {setting : StepSetting} {trace : Bool}
    (fixed : s.settings = some ⟨setting, trace⟩) : Settled s setting trace := by
  constructor
  · rw [call, fixed]
  · rw [call, fixed]
    cases setting <;> rfl
  · rw [call, fixed]

theorem after_cons (s : Session) (c : Call) (cs : List Call) :
    s.after (c :: cs) = (s.call c).session.after cs := rfl

theorem after_append (s : Session) (cs ds : List Call) :
    s.after (cs ++ ds) = (s.after cs).after ds := List.foldl_append

theorem settings_call (s : Session) (c : Call) (other : c ≠ .init ∨ s.settings.isSome) :
    (s.call c).session.settings = s.settings := by
  cases c with
  | init =>
    obtain ⟨fixed, there⟩ := Option.isSome_iff_exists.1 (other.resolve_left (absurd rfl))
    rw [call, there]
    exact there
  | maxSteps | isTraceEnabled =>
    unfold call
    cases h : s.settings <;> exact h
  | setMinimal | isMinimal | assign => rfl

theorem maxSteps_set (vs : Environment) (name : String) (value : Option (List UInt8)) :
    (vs.set name value).maxSteps = if name = "LS8_MAX_STEPS" then value else vs.maxSteps := by
  unfold Environment.set
  split <;> simp_all

theorem trace_set (vs : Environment) (name : String) (value : Option (List UInt8)) :
    (vs.set name value).trace = if name = "LS8_TRACE" then value else vs.trace := by
  unfold Environment.set
  split <;> simp_all

theorem environment_call (s : Session) (c : Call) :
    (s.call c).session.environment =
      match c with
      | .assign name value => s.environment.set name value
      | .init | .maxSteps | .isTraceEnabled | .setMinimal _ | .isMinimal => s.environment := by
  unfold call
  cases c with
  | init | maxSteps | isTraceEnabled => cases s.settings <;> rfl
  | setMinimal | isMinimal | assign => rfl

theorem maxSteps_after (s : Session) (cs : List Call) :
    (s.after cs).environment.maxSteps =
      lastValue "LS8_MAX_STEPS" s.environment.maxSteps cs := by
  induction cs generalizing s with
  | nil => rfl
  | cons c cs ih =>
    rw [after_cons, ih, environment_call]
    cases c with
    | assign name value => rw [maxSteps_set, lastValue]
    | init | maxSteps | isTraceEnabled | setMinimal | isMinimal => rw [lastValue]

theorem trace_after (s : Session) (cs : List Call) :
    (s.after cs).environment.trace = lastValue "LS8_TRACE" s.environment.trace cs := by
  induction cs generalizing s with
  | nil => rfl
  | cons c cs ih =>
    rw [after_cons, ih, environment_call]
    cases c with
    | assign name value => rw [trace_set, lastValue]
    | init | maxSteps | isTraceEnabled | setMinimal | isMinimal => rw [lastValue]

theorem settings_after (s : Session) {cs : List Call}
    (other : .init ∉ cs ∨ s.settings.isSome) : (s.after cs).settings = s.settings := by
  induction cs generalizing s with
  | nil => rfl
  | cons c cs ih =>
    have same := settings_call s c (other.imp_left fun h => (List.ne_of_not_mem_cons h).symm)
    rw [after_cons, ih, same]
    rw [same]
    exact other.imp_left List.not_mem_of_not_mem_cons

theorem settings_after_init {s : Session} {before : List Call} (later : List Call)
    (fresh : s.settings = none) (first : .init ∉ before) :
    (s.after (before ++ .init :: later)).settings =
      some ⟨StepSetting.read (lastValue "LS8_MAX_STEPS" s.environment.maxSteps before),
        lastValue "LS8_TRACE" s.environment.trace before = some "1".toUTF8.toList⟩ := by
  have unset : (s.after before).settings = none := (settings_after s (.inl first)).trans fresh
  rw [after_append, after_cons, (unread unset).init, settings_after _ (.inr rfl), Settings.read,
    maxSteps_after, trace_after]

theorem log_call (s : Session) {c : Call} (other : c ≠ .maxSteps) : (s.call c).log = [] := by
  unfold call
  cases c with
  | maxSteps => exact absurd rfl other
  | init | isTraceEnabled => cases s.settings <;> rfl
  | setMinimal | isMinimal | assign => rfl

theorem log_eq_nil {s : Session} {cs : List Call} :
    ∀ e ∈ s.transcript cs, e.call ≠ .maxSteps → e.log = [] := by
  induction cs generalizing s with
  | nil => nofun
  | cons c cs ih =>
    intro e he
    obtain rfl | later := List.mem_cons.1 he
    · exact log_call s
    · exact ih e later

theorem call_minimal (s : Session) (on : Bool) {c : Call} (other : c.isOutput = false) :
    { s with minimal := on }.call c =
      ⟨{ (s.call c).session with minimal := on }, (s.call c).answer, (s.call c).log⟩ := by
  obtain ⟨environment, settings, minimal⟩ := s
  cases c with
  | setMinimal | isMinimal => cases other
  | init | maxSteps | isTraceEnabled => cases settings <;> rfl
  | assign => rfl

theorem minimal_call (s : Session) {c : Call} (other : c.isOutput = false) :
    (s.call c).session.minimal = s.minimal :=
  congrArg (·.session.minimal) (call_minimal s s.minimal other)

theorem call_output (s : Session) (environment : Environment) (settings : Option Settings)
    {c : Call} (output : c.isOutput = true) :
    { s with environment, settings }.call c =
      ⟨{ (s.call c).session with environment, settings }, (s.call c).answer, (s.call c).log⟩ := by
  cases c with
  | init | maxSteps | isTraceEnabled | assign => cases output
  | setMinimal | isMinimal => rfl

theorem eq_of_call_output (s : Session) (on : Bool) {c : Call} (output : c.isOutput = true) :
    { (s.call c).session with minimal := on } = { s with minimal := on } := by
  cases c with
  | init | maxSteps | isTraceEnabled | assign => cases output
  | setMinimal | isMinimal => rfl

theorem transcript_settings (s : Session) (on : Bool) (cs : List Call) :
    (s.transcript cs).filter (fun e => !e.call.isOutput) =
      { s with minimal := on }.transcript (cs.filter fun c => !c.isOutput) := by
  induction cs generalizing s with
  | nil => rfl
  | cons c cs ih =>
    rw [transcript]
    cases output : c.isOutput with
    | true =>
      rw [List.filter_cons_of_neg (by simp [output]), List.filter_cons_of_neg (by simp [output]),
        ih, eq_of_call_output s on output]
    | false =>
      rw [List.filter_cons_of_pos (by simp [output]), List.filter_cons_of_pos (by simp [output]),
        ih, transcript, call_minimal s on output]

theorem transcript_output (s : Session) (environment : Environment) (settings : Option Settings)
    (cs : List Call) :
    (s.transcript cs).filter (fun e => e.call.isOutput) =
      { s with environment, settings }.transcript (cs.filter fun c => c.isOutput) := by
  induction cs generalizing s with
  | nil => rfl
  | cons c cs ih =>
    rw [transcript]
    cases output : c.isOutput with
    | true =>
      rw [List.filter_cons_of_pos (by exact output), List.filter_cons_of_pos output, ih, transcript,
        call_output s environment settings output]
    | false =>
      rw [List.filter_cons_of_neg (by simp [output]), List.filter_cons_of_neg (by simp [output]),
        ih, minimal_call s output]

/-- A session reads its settings at the first initialization and at no other. Before it, asking for
them is a misuse that changes nothing; after it, so is initializing again, and every answer is from
the variables as they were then. Warnings come of asking for a malformed limit and of nothing else.
The calls about minimal output and the others show nothing of each other. -/
theorem settings_are_read_once (vs : Environment) (on : Bool) :
    (∀ before, .init ∉ before → Unread ((start vs on).after before)) ∧
    (∀ before later, .init ∉ before →
      Settled ((start vs on).after (before ++ .init :: later))
        (StepSetting.read (lastValue "LS8_MAX_STEPS" vs.maxSteps before))
        (lastValue "LS8_TRACE" vs.trace before = some "1".toUTF8.toList)) ∧
    (∀ cs, ∀ e ∈ (start vs on).transcript cs, e.call ≠ .maxSteps → e.log = []) ∧
    (∀ cs on', ((start vs on).transcript cs).filter (fun e => !e.call.isOutput) =
      (start vs on').transcript (cs.filter fun c => !c.isOutput)) ∧
    ∀ cs vs', ((start vs on).transcript cs).filter (fun e => e.call.isOutput) =
      (start vs' on).transcript (cs.filter fun c => c.isOutput) := by
  refine ⟨fun before first => unread (settings_after _ (.inl first)), fun before later first => ?_,
    fun cs => log_eq_nil, fun cs on' => transcript_settings _ on' cs,
    fun cs vs' => transcript_output _ vs' none cs⟩
  exact settled (settings_after_init later rfl first)

def misuse : List Call := [.isTraceEnabled, .assign "LS8_MAX_STEPS" (some "ten".toUTF8.toList)]

def misuseToo : List Call :=
  [.assign "LS8_MAX_STEPS" none, .assign "LS8_TRACE" (some "1".toUTF8.toList), .init]

theorem misuse_settings_are_read_once :
    .init ∉ misuse ∧
      (((start {} false).after misuse).call .maxSteps).answer = .error .notInitialized ∧
      let s := (start {} false).after (misuse ++ .init :: misuseToo)
      s.call .maxSteps = ⟨s, .ok (.steps none), [.limitMalformed]⟩ ∧
        s.call .isTraceEnabled = ⟨s, .ok (.flag false), []⟩ := by
  have first : .init ∉ misuse := by decide +kernel
  have malformed : StepSetting.read (lastValue "LS8_MAX_STEPS" none misuse) = .malformed := by
    decide +kernel
  have trace : decide (lastValue "LS8_TRACE" none misuse = some "1".toUTF8.toList) = false := by
    decide +kernel
  obtain ⟨unread, settled, -⟩ := settings_are_read_once {} false
  have answers := settled misuse misuseToo first
  rw [malformed, trace] at answers
  exact ⟨first, congrArg Reply.answer (unread misuse first).maxSteps, answers.maxSteps,
    answers.isTraceEnabled⟩

end ByteCpu.Session
