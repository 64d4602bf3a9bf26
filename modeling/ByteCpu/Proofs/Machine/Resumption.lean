import ByteCpu.Proofs.Machine.Calls

/-!
Interrupted runs. The main statement is that calls with limits and failing sinks in any order leave
the machine where the program without a limit is after as many steps, and have printed what it has
printed by then.
-/

set_option autoImplicit false

namespace ByteCpu

def Sink.Event.text (es : List Sink.Event) : String := String.join (es.map (·.written))

theorem Sink.Event.text_concat (es : List Sink.Event) (e : Sink.Event) :
    text (es ++ [e]) = text es ++ e.written := by
  simp [text, String.join]

namespace Machine

/-- The machine is where the one it started as is, without a limit, after as many turns. The lines
accepted are those printed by then, unless one was refused. -/
def OnCourse (m₀ m : Machine) (es : List Sink.Event) : Prop :=
  ∃ buffer : Buffer, buffer.room = none ∧
    steps? .silent m.steps m₀ {} = some (m.withLimit none, buffer) ∧
    ((∀ e ∈ es, e.isRefusedWrite = false) → Sink.Event.text es = buffer.text)

theorem steps?_succ {m₀ m m' : Machine} {n : Nat} {buffer buffer' : Buffer} {s : State}
    {log : List Log.Event} (h : steps? .silent n m₀ ({} : Buffer) = some (m, buffer))
    (step : m.step .silent buffer = ⟨.ok s, m', buffer', log⟩) :
    steps? .silent (n + 1) m₀ ({} : Buffer) = some (m', buffer') := by
  rw [steps?_add, h]
  simp [steps?, step]

theorem kept_onCourse (m₀ : Machine) : Kept fun _ es m => OnCourse m₀ m es where
  limit _ h := h
  instr {_ es m i} state _ next h := by
    obtain ⟨buffer, room, course, text⟩ := h
    unfold OnCourse
    rw [steps_after, ← after_withLimit]
    cases printed : m.printed? i with
    | none =>
      refine ⟨buffer, room, ?_, ?_⟩
      · exact steps?_succ course (step_eq_iff.2 (.silent state rfl next printed))
      · rwa [Option.toList_none, Sink.Event.ofLines, List.map_nil, List.append_nil]
    | some v =>
      refine ⟨{ buffer with text := buffer.text ++ printedLine v }, room, ?_, fun accepted => ?_⟩
      · exact steps?_succ course
          (step_eq_iff.2 (.printed state rfl next printed (Buffer.write_of_room room _)))
      · have sofar := text fun e he => accepted e (List.mem_append_left _ he)
        rw [Option.toList_some, Sink.Event.ofLines, List.map_singleton, Sink.Event.text_concat,
          sofar]
        rfl
  refused line h := by
    obtain ⟨buffer, room, course, -⟩ := h
    refine ⟨buffer, room, course, fun accepted => ?_⟩
    have hr := accepted (.write line false) (by simp)
    cases hr
  flushed accepted h := by
    obtain ⟨buffer, room, course, text⟩ := h
    refine ⟨buffer, room, course, fun all => ?_⟩
    rw [Sink.Event.text_concat, text fun e he => all e (List.mem_append_left _ he)]
    exact String.append_empty

/-- Stopping at a limit or at a sink that fails and going on later loses no instruction, repeats
none and changes no order. -/
theorem calls_stay_on_course {program : List UInt8} (fits : program.length ≤ 256) :
    ∃ m₀, withProgram program = .ok m₀ ∧ ∀ tr es m, Calls m₀ tr es m →
      ∃ buffer, steps? .silent m.steps m₀ ({} : Buffer) = some (m.withLimit none, buffer) ∧
        ((∀ e ∈ es, e.isRefusedWrite = false) → Sink.Event.text es = buffer.text) := by
  refine ⟨loaded program, withProgram_eq_ok_iff.2 ⟨fits, rfl⟩, fun tr es m calls => ?_⟩
  obtain ⟨buffer, -, course, text⟩ := (kept_onCourse _).calls calls ⟨{}, rfl, rfl, fun _ => rfl⟩
  exact ⟨buffer, course, text⟩

/-- Stopped by a limit after one instruction, then by a sink without room. -/
def stoppedTwelve : Machine :=
  let m := (((loaded twelve).withLimit (some 1)).step .silent narrow).machine
  let m := (m.step .silent narrow).machine
  ((m.withLimit none).step .silent narrow).machine

theorem stoppedTwelve_stays_on_course :
    twelve.length ≤ 256 ∧ withProgram twelve = .ok (loaded twelve) ∧
      ∃ tr es o, Calls (loaded twelve) tr es o.machine ∧
        stoppedTwelve.run? .silent ({} : Buffer) = some o ∧ o.machine.steps = 3 ∧
        ∃ buffer, steps? .silent 3 (loaded twelve) ({} : Buffer) =
          some (o.machine.withLimit none, buffer) := by
  have fits : twelve.length ≤ 256 := by decide
  obtain ⟨m₀, load, course⟩ := calls_stay_on_course fits
  obtain rfl := (withProgram_eq_ok_iff.1 load).2
  have count : (stoppedTwelve.run? .silent ({} : Buffer)).map (·.machine.steps) = some 3 := by
    decide +kernel
  obtain ⟨o, run, three⟩ := Option.map_eq_some_iff.1 count
  have limited := (Calls.refl : Calls (loaded twelve) [] [] _).limit (some 1)
  have stopped := (limited.step .silent narrow).step .silent narrow
  have again := (stopped.limit none).step .silent narrow
  have calls := again.run .silent ({} : Buffer) run
  obtain ⟨buffer, steps, -⟩ := course _ _ _ calls
  exact ⟨fits, load, _, _, o, calls, run, three, buffer, three ▸ steps⟩

end Machine
end ByteCpu
