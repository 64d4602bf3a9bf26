import ByteCpu.Proofs.Machine.Turn

/-!
Sinks seen from outside: the text that a sink has taken, and the record of what it is asked. The
machine does not see which sink it has, so a recorded call is the call without its record.
-/

set_option autoImplicit false

namespace ByteCpu

/-- The text in a sink. Of a line that it refuses it may have stored a first part. -/
structure Sink.View (σ : Type) [Sink σ] where
  text : σ → String
  text_of_accepted {s s' : σ} {line : String} :
    Sink.write s line = (s', true) → text s' = text s ++ line
  text_of_refused {s s' : σ} {line : String} :
    Sink.write s line = (s', false) →
      ∃ part, part <+: line.toList ∧ text s' = text s ++ String.ofList part
  text_of_flush (s : σ) : text (Sink.flush s).1 = text s

inductive Sink.Event where
  | write (line : String) (accepted : Bool)
  | flush (accepted : Bool)
  deriving DecidableEq, Repr

namespace Sink.Event

def isRefusedWrite : Event → Bool
  | write _ accepted => !accepted
  | flush _ => false

def written : Event → String
  | write line true => line
  | write _ false | flush _ => ""

end Sink.Event

structure Recorder (σ : Type) where
  sink : σ
  events : List Sink.Event := []

namespace Recorder

variable {σ : Type} [Sink σ]

def write (r : Recorder σ) (line : String) : Recorder σ × Bool :=
  let (sink, accepted) := Sink.write r.sink line
  (⟨sink, r.events ++ [.write line accepted]⟩, accepted)

def flush (r : Recorder σ) : Recorder σ × Bool :=
  let (sink, accepted) := Sink.flush r.sink
  (⟨sink, r.events ++ [.flush accepted]⟩, accepted)

instance : Sink (Recorder σ) := ⟨write, flush⟩

theorem events_of_write {r r' : Recorder σ} {line : String} {accepted : Bool}
    (h : Sink.write r line = (r', accepted)) : r'.events = r.events ++ [.write line accepted] := by
  cases h
  rfl

theorem events_of_flush {r r' : Recorder σ} {accepted : Bool}
    (h : Sink.flush r = (r', accepted)) : r'.events = r.events ++ [.flush accepted] := by
  cases h
  rfl

end Recorder

namespace Buffer

theorem text_of_write {b b' : Buffer} {line : String} (h : Sink.write b line = (b', true)) :
    b'.text = b.text ++ line := by
  change b.write line = _ at h
  unfold write at h
  cases hr : b.room with
  | none =>
    rw [hr] at h
    cases h
    rfl
  | some n =>
    simp only [hr, Prod.mk.injEq, decide_eq_true_eq] at h
    obtain ⟨rfl, hn⟩ := h
    rw [List.take_of_length_le (by rwa [String.length_toList]), String.ofList_toList]

theorem write_of_room {b : Buffer} (h : b.room = none) (line : String) :
    Sink.write b line = ({ b with text := b.text ++ line }, true) := by
  change b.write line = _
  unfold write
  rw [h]

def view : Sink.View Buffer where
  text b := b.text
  text_of_accepted := text_of_write
  text_of_refused {b b' line} h := by
    change b.write line = _ at h
    unfold write at h
    cases hr : b.room with
    | none => simp [hr] at h
    | some n =>
      simp only [hr, Prod.mk.injEq] at h
      obtain ⟨rfl, -⟩ := h
      exact ⟨line.toList.take n, List.take_prefix n line.toList, rfl⟩
  text_of_flush _ := rfl

end Buffer

/-- A map between sinks that keeps what writing and flushing answer. -/
structure Sink.Hom {σ τ : Type} [Sink σ] [Sink τ] (f : σ → τ) : Prop where
  write (s : σ) (line : String) :
    Sink.write (f s) line = (f (Sink.write s line).1, (Sink.write s line).2)
  flush (s : σ) : Sink.flush (f s) = (f (Sink.flush s).1, (Sink.flush s).2)

theorem Recorder.hom_sink {σ : Type} [Sink σ] : Sink.Hom (Recorder.sink : Recorder σ → σ) :=
  ⟨fun _ _ => rfl, fun _ => rfl⟩

def Outcome.map {σ τ α : Type} (f : σ → τ) (o : Outcome σ α) : Outcome τ α :=
  ⟨o.result, o.machine, f o.sink, o.log⟩

namespace Machine

variable {σ τ : Type} [Sink σ] [Sink τ]

theorem step_map {f : σ → τ} (hf : Sink.Hom f) (filter : Log.Filter) (m : Machine) (out : σ) :
    m.step filter (f out) = (m.step filter out).map f := by
  rw [step_eq_iff]
  have h := turn_step filter m out
  generalize m.step filter out = o at h
  cases h with
  | halted state => exact .halted state
  | stopped state reached => exact .stopped state reached
  | refused state reached next => exact .refused state reached next
  | silent state reached next printed => exact .silent state reached next printed
  | printed state reached next printed write =>
    exact .printed state reached next printed (by rw [hf.write, write])
  | unprinted state reached next printed write =>
    exact .unprinted state reached next printed (by rw [hf.write, write])

end Machine
end ByteCpu
