import ByteCpu.Proofs.Machine.Calls
import ByteCpu.Proofs.Machine.Limits
import ByteCpu.Proofs.Text.Numerals

/-!
The text that a run prints, and what becomes of the run if the sink has no room for all of it. The
main statement is that such a run fails at the first line that does not fit, with the machine as it
is before that line is printed and the sink filled to its last byte.
-/

set_option autoImplicit false

namespace ByteCpu

namespace Text

def start (k : Nat) (s : String) : String := String.ofList (s.toList.take k)

section
variable {s : String} {k : Nat}

theorem start_append_of_lt (h : k < s.length) (t : String) : start k (s ++ t) = start k s := by
  have inside : k ≤ s.toList.length := by
    rw [String.length_toList]
    omega
  rw [start, start, String.toList_append, List.take_append_of_le_length inside]

theorem start_append_of_le (h : s.length ≤ k) (t : String) :
    start k (s ++ t) = s ++ start (k - s.length) t := by
  have all : s.toList.length ≤ k := by rwa [String.length_toList]
  rw [start, start, String.toList_append, List.take_append, List.take_of_length_le all,
    String.ofList_append, String.ofList_toList, String.length_toList]

end

theorem newline_not_mem_digits (n : Nat) : '\n' ∉ digits 10 0 n :=
  not_mem_digits (by decide) (by decide) 0 n (by decide)

theorem utf8Size_of_mem_digits {n : Nat} {c : Char} (h : c ∈ digits 10 0 n) : c.utf8Size = 1 := by
  have digit : ∀ d < 10, d.digitChar.utf8Size = 1 := by decide
  exact forall_mem_digits (P := (·.utf8Size = 1)) (by decide) digit 0 n c h

theorem utf8Len_eq_length {cs : List Char} (single : ∀ c ∈ cs, c.utf8Size = 1) :
    String.utf8Len cs = cs.length := by
  induction cs with
  | nil => rfl
  | cons c cs ih =>
    obtain ⟨here, later⟩ := List.forall_mem_cons.1 single
    rw [String.utf8Len_cons, ih later, here, List.length_cons]

theorem splitOn_flatMap_newline {ls : List (List Char)} (free : ∀ l ∈ ls, '\n' ∉ l) :
    (ls.flatMap (· ++ ['\n'])).splitOn '\n' = ls ++ [[]] := by
  induction ls with
  | nil => rfl
  | cons l ls ih =>
    obtain ⟨here, later⟩ := List.forall_mem_cons.1 free
    rw [List.flatMap_cons, List.append_assoc, List.singleton_append,
      List.splitOn_append_cons_self, List.splitOn_eq_singleton here, ih later]
    rfl

end Text

def printedLines (vs : List UInt8) : String := String.join (vs.map printedLine)

def output (tr : List Occurrence) : String := printedLines (printedBytes tr)

theorem toList_output (tr : List Occurrence) :
    (output tr).toList =
      ((printedBytes tr).map fun v => Text.digits 10 0 v.toNat).flatMap (· ++ ['\n']) := by
  simp [output, printedLines, String.toList_join, List.flatMap_map, printedLine, Text.decimal]

theorem output_append (tr tr' : List Occurrence) : output (tr ++ tr') = output tr ++ output tr' := by
  simp [← String.toList_inj, toList_output, printedBytes_append]

/-- A text prints bytes if its lines are their decimal numerals. Characters of one byte each make
it up; cut at the newlines, it gives the bytes back. -/
structure Prints (text : String) (vs : List UInt8) (ls : List (List Char)) : Prop where
  whole : text.toList = ls.flatMap (· ++ ['\n'])
  decimal : List.Forall₂ (fun v l => Text.IsDecimal v.toNat l) vs ls
  cut : text.toList.splitOn '\n' = ls ++ [[]]
  reads : ls.map (Text.byteNumeral? 10) = vs.map some
  size : text.utf8ByteSize = text.length

theorem prints_output (tr : List Occurrence) :
    Prints (output tr) (printedBytes tr)
      ((printedBytes tr).map fun v => Text.digits 10 0 v.toNat) where
  whole := toList_output tr
  decimal := by
    rw [List.forall₂_map_right_iff, List.forall₂_same]
    exact fun v _ => Text.isDecimal_digits v.toNat
  cut := by
    rw [toList_output, Text.splitOn_flatMap_newline]
    intro l hl
    obtain ⟨v, -, rfl⟩ := List.mem_map.1 hl
    exact Text.newline_not_mem_digits v.toNat
  reads := by
    rw [List.map_map]
    exact List.map_congr_left fun v _ => Text.byteNumeral?_digits (by decide) (by decide) 0 v
  size := by
    rw [← String.ofList_toList (s := output tr), String.utf8ByteSize_ofList,
      Text.utf8Len_eq_length, String.length_ofList]
    intro c hc
    rw [toList_output] at hc
    obtain ⟨l, hl, there⟩ := List.mem_flatMap.1 hc
    obtain ⟨v, -, rfl⟩ := List.mem_map.1 hl
    obtain digit | feed := List.mem_append.1 there
    · exact Text.utf8Size_of_mem_digits digit
    · rw [List.mem_singleton.1 feed]
      rfl

namespace Buffer

def extend (b : Buffer) (s : String) : Buffer := { b with text := b.text ++ s }

def bounded (b : Buffer) (room : Nat) : Buffer := { b with room := some room }

variable {b : Buffer} {line : String} {k : Nat}

theorem write_of_fits (fits : line.length ≤ k) :
    Sink.write (b.bounded k) line = ((b.extend line).bounded (k - line.length), true) := by
  have all : line.toList.take k = line.toList :=
    List.take_of_length_le (by rwa [String.length_toList])
  change (b.bounded k).write line = _
  simp [write, bounded, extend, all, fits, String.length_toList]

theorem write_of_exceeds (exceeds : k < line.length) :
    Sink.write (b.bounded k) line =
      ((b.extend (Text.start k line)).bounded 0, false) := by
  have part : (line.toList.take k).length = k :=
    List.length_take_of_le (by rw [String.length_toList]; omega)
  change (b.bounded k).write line = _
  simp [write, bounded, extend, Text.start, part, exceeds]

end Buffer

namespace Machine

variable {filter : Log.Filter} {m : Machine} {b : Buffer} {k : Nat}

theorem steps_step {σ : Type} [Sink σ] (filter : Log.Filter) (m : Machine) (out : σ) :
    (m.step filter out).machine.steps = m.steps + (m.carriedOut filter out).length := by
  obtain ⟨nothing, same⟩ | ⟨i, -, -, machine, one⟩ := carriedOut_cases filter m out
  · rw [nothing, same]
    rfl
  · rw [one, machine, steps_after]
    rfl

theorem step_unbounded (filter : Log.Filter) (m : Machine) (room : b.room = none) :
    (output (m.carriedOut filter b) = "" ∧ (m.step filter b).sink = b ∧
      ∀ k, m.step filter (b.bounded k) = (m.step filter b).map (·.bounded k)) ∨
    ∃ r, m.carriedOut filter b = [⟨m, .prn r, m.after (.prn r)⟩] ∧ m.state = .running ∧
      m.limitReached = none ∧ m.next = .ok (.prn r) := by
  have ht := turn_step filter m b
  generalize hs : m.step filter b = o at ht
  have result : (m.step filter b).result = o.result := by rw [hs]
  cases ht with
  | halted state =>
    refine .inl ⟨?_, rfl, fun k => step_of_halted state⟩
    rw [carriedOut_of_halted state]
    rfl
  | stopped state reached =>
    refine .inl ⟨?_, rfl, fun k => step_eq_iff.2 (.stopped state reached)⟩
    rw [carriedOut_of_error result]
    rfl
  | refused state reached next =>
    refine .inl ⟨?_, rfl, fun k => step_eq_iff.2 (.refused state reached next)⟩
    rw [carriedOut_of_error result]
    rfl
  | silent state reached next printed =>
    refine .inl ⟨?_, rfl, fun k => step_eq_iff.2 (.silent state reached next printed)⟩
    rw [carriedOut_of_ok state next result]
    simp [output, printedLines, printedBytes, Occurrence.printed?, printed]
  | printed state reached next printed =>
    obtain ⟨r, rfl, -⟩ := printed?_eq_some_iff.1 printed
    have one := carriedOut_of_ok state next result
    rw [hs] at one
    exact .inr ⟨r, one, state, reached, next⟩
  | unprinted _ _ _ _ write =>
    rw [Buffer.write_of_room room] at write
    cases write

theorem output_prn (r : Reg) (m' : Machine) :
    output [⟨m, .prn r, m'⟩] = printedLine (m.registers.get r) := by
  simp [output, printedLines, printedBytes_singleton, Occurrence.printed?, printed?]

theorem step_prn {σ : Type} [Sink σ] {out out' : σ} {r : Reg} (state : m.state = .running)
    (reached : m.limitReached = none) (next : m.next = .ok (.prn r))
    (write : Sink.write out (printedLine (m.registers.get r)) = (out', true)) :
    m.step filter out =
      ⟨.ok (m.after (.prn r)).state, m.after (.prn r), out',
        filter.emit (.fetching m.snapshot)⟩ :=
  step_eq_iff.2 (.printed state reached next rfl write)

theorem sink_step (filter : Log.Filter) (m : Machine) (room : b.room = none) :
    (m.step filter b).sink = b.extend (output (m.carriedOut filter b)) := by
  obtain ⟨nothing, same, -⟩ | ⟨r, one, state, reached, next⟩ := step_unbounded filter m room
  · rw [nothing, same]
    simp [Buffer.extend]
  · rw [one, output_prn, step_prn state reached next (Buffer.write_of_room room _)]
    rfl

theorem step_fits (room : b.room = none)
    (fits : (output (m.carriedOut filter b)).length ≤ k) :
    m.step filter (b.bounded k) =
      (m.step filter b).map (·.bounded (k - (output (m.carriedOut filter b)).length)) := by
  obtain ⟨nothing, -, blind⟩ | ⟨r, one, state, reached, next⟩ := step_unbounded filter m room
  · rw [nothing]
    exact blind k
  · rw [one, output_prn] at fits ⊢
    rw [step_prn state reached next (Buffer.write_of_room room _),
      step_prn state reached next (Buffer.write_of_fits fits)]
    rfl

theorem step_exceeds (room : b.room = none)
    (exceeds : k < (output (m.carriedOut filter b)).length) :
    ∃ r, m.carriedOut filter b = [⟨m, .prn r, m.after (.prn r)⟩] ∧ m.state = .running ∧
      m.Holds (.prn r) ∧
      m.step filter (b.bounded k) =
        ⟨.error .output, m,
          (b.extend (Text.start k (output (m.carriedOut filter b)))).bounded 0,
          filter.emit (.fetching m.snapshot)⟩ := by
  obtain ⟨nothing, -⟩ | ⟨r, one, state, reached, next⟩ := step_unbounded filter m room
  · rw [nothing] at exceeds
    cases exceeds
  · refine ⟨r, one, state, (next_eq_ok_iff.1 next).1, ?_⟩
    rw [one, output_prn] at exceeds ⊢
    exact step_eq_iff.2 (.unprinted state reached next rfl (Buffer.write_of_exceeds exceeds))

theorem finish_bounded (b : Buffer) (log : Array Log.Event) :
    finish filter m (b.bounded k) log = (finish filter m b log).map (·.bounded k) := by
  have flush (b : Buffer) : Sink.flush b = ({ b with flushes := b.flushes + 1 }, !b.flushFails) := rfl
  unfold finish
  rw [flush, flush]
  cases fails : b.flushFails <;> simp [Buffer.bounded, fails, Outcome.map]

theorem proceed_fits {turns : Nat} (room : b.room = none)
    (fits : (output (executed filter turns m b)).length ≤ k) (log : Array Log.Event) :
    proceed filter turns m (b.bounded k) log =
      (proceed filter turns m b log).map
        (·.bounded (k - (output (executed filter turns m b)).length)) := by
  induction turns generalizing m b k log with
  | zero => rfl
  | succ turns ih =>
    have sink := sink_step filter m room
    rw [executed, output_append, String.length_append] at fits ⊢
    rw [proceed, proceed, step_fits room (by omega)]
    generalize output (m.carriedOut filter b) = line at fits sink ⊢
    cases hs : m.step filter b with
    | mk result m' b' events =>
      simp only [hs] at sink fits ⊢
      cases result with
      | error f => rfl
      | ok s =>
        cases s with
        | halted => exact congrArg Progress.ended (finish_bounded b' _)
        | running =>
          have both : line.length + (output (executed filter turns m' b')).length ≤ k := fits
          have free : b'.room = none := by rwa [sink]
          have later := ih free (Nat.le_sub_of_add_le' both) (log ++ events)
          rwa [Nat.sub_sub] at later

/-- Where a bound on the text stops a run: at the first line that ends beyond it. -/
structure CutAt (m : Machine) (k : Nat) (p : List Occurrence) (e : Occurrence) (m' : Machine) :
    Prop where
  fits : (output p).length ≤ k
  exceeds : k < (output (p ++ [e])).length
  instr : ∃ r, e.instr = .prn r ∧ m'.Holds (.prn r)
  machine : m' = e.before
  state : m'.state = .running
  steps : m'.steps = m.steps + p.length

theorem exists_rest (filter : Log.Filter) (turns : Nat) (m : Machine) (b : Buffer) :
    ∃ rest, executed filter (turns + 1) m b = m.carriedOut filter b ++ rest ∧
      (rest = [] ∨ (m.step filter b).result = .ok .running ∧
        rest = executed filter turns (m.step filter b).machine (m.step filter b).sink) := by
  refine ⟨_, rfl, ?_⟩
  cases m.step filter b with
  | mk result m' b' events =>
    cases result with
    | error f => exact .inl rfl
    | ok s =>
      cases s with
      | halted => exact .inl rfl
      | running => exact .inr ⟨rfl, rfl⟩

theorem cutAt_here {r : Reg} (state : m.state = .running) (holds : m.Holds (.prn r))
    (exceeds : k < (output [⟨m, .prn r, m.after (.prn r)⟩]).length) :
    CutAt m k [] ⟨m, .prn r, m.after (.prn r)⟩ m where
  fits := Nat.zero_le k
  exceeds := exceeds
  instr := ⟨r, rfl, holds⟩
  machine := rfl
  state := state
  steps := rfl

theorem CutAt.later {m₁ m' : Machine} {tr p : List Occurrence} {e : Occurrence}
    (h : CutAt m₁ (k - (output tr).length) p e m') (steps : m₁.steps = m.steps + tr.length)
    (before : (output tr).length ≤ k) : CutAt m k (tr ++ p) e m' where
  fits := by
    have fits := h.fits
    rw [output_append, String.length_append]
    omega
  exceeds := by
    have exceeds := h.exceeds
    rw [List.append_assoc, output_append, String.length_append]
    omega
  instr := h.instr
  machine := h.machine
  state := h.state
  steps := by
    rw [h.steps, steps, List.length_append]
    omega

theorem proceed_exceeds {turns : Nat} (room : b.room = none)
    (exceeds : k < (output (executed filter turns m b)).length) (log : Array Log.Event) :
    ∃ o, proceed filter turns m (b.bounded k) log = .ended o ∧ o.result = .error .output ∧
      o.sink.text = b.text ++ Text.start k (output (executed filter turns m b)) ∧
      ∃ p e q, executed filter turns m b = p ++ e :: q ∧ CutAt m k p e o.machine := by
  induction turns generalizing m b k log with
  | zero => cases exceeds
  | succ turns ih =>
    obtain ⟨rest, whole, cases⟩ := exists_rest filter turns m b
    rw [whole, output_append] at exceeds ⊢
    rw [String.length_append] at exceeds
    by_cases here : k < (output (m.carriedOut filter b)).length
    · obtain ⟨r, one, state, holds, step⟩ := step_exceeds room here
      rw [proceed, step]
      refine ⟨_, rfl, rfl, ?_, [], _, rest, ?_, cutAt_here state holds ?_⟩
      · rw [Text.start_append_of_lt here]
        rfl
      · rw [one]
        rfl
      · rwa [one] at here
    · obtain rfl | ⟨result, rfl⟩ := cases
      · exact absurd exceeds here
      · have sink := sink_step filter m room
        have steps := steps_step filter m b
        have fits := Nat.le_of_not_lt here
        rw [proceed, step_fits room fits]
        cases hs : m.step filter b with
        | mk _ m' b' events =>
          simp only [hs] at result sink steps exceeds ⊢
          subst result
          have free : b'.room = none := by rwa [sink]
          obtain ⟨o, run, error, text, p, e, q, cut, stopped⟩ :=
            ih free (Nat.sub_lt_left_of_lt_add fits exceeds) (log ++ events)
          refine ⟨o, run, error, ?_, m.carriedOut filter b ++ p, e, q, ?_, stopped.later steps fits⟩
          · rw [text, Text.start_append_of_le fits, ← String.append_assoc, sink]
            rfl
          · rw [cut, List.append_assoc]

theorem Stretch.sink_eq {m₀ : Machine} {b₀ : Buffer} {tr : List Occurrence} (room : b₀.room = none)
    (h : Stretch m₀ b₀ tr m b) : b = b₀.extend (output tr) := by
  refine h.prints (P := fun vs b => b = b₀.extend (printedLines vs)) ?_ ?_
  · simp [printedLines, Buffer.extend]
  · rintro vs v _ b' rfl write
    rw [Buffer.write_of_room (by exact room), Prod.mk.injEq] at write
    rw [← write.1]
    simp [printedLines, Buffer.extend, String.append_assoc]

theorem text_of_ending {b' : Buffer} {result : Except Fault Nat} (room : b.room = none)
    (h : Ending filter m b result b') : b'.text = b.text := by
  cases h with
  | halted _ flush | unflushed _ flush => exact (congrArg (·.1.text) flush).symm
  | fault _ error =>
    rw [sink_step filter m room, carriedOut_of_error error]
    exact String.append_empty

theorem text_of_run {o : Outcome Buffer Nat} (room : b.room = none)
    (run : m.run? filter b = some o) : o.sink.text = b.text ++ output (m.runTrace filter b) := by
  obtain ⟨b', stretch, ending⟩ := stretch_run run
  have sink := stretch.sink_eq room
  have free : b'.room = none := by rwa [sink]
  rw [text_of_ending free ending, sink]
  rfl

/-- A run prints the decimal lines of the bytes that its instructions print. With room for all of
them it goes as it does without a bound; with less it fails at the first line that does not fit,
neither counting nor passing the instruction, and leaves as much of the text as there is room
for. -/
theorem output_is_cut_at_capacity (filter : Log.Filter) (m : Machine) (capacity : Nat) :
    let free : Buffer := {}
    let tr := m.runTrace filter free
    let bounded := m.run? filter (free.bounded capacity)
    (∀ L, m.limit = some L → ∃ o, m.run? filter free = some o) ∧
    (∀ o, m.run? filter free = some o →
      (∃ b, Stretch m free tr o.machine b) ∧ o.sink.text = output tr) ∧
    (∃ ls, Prints (output tr) (printedBytes tr) ls) ∧
    ((output tr).length ≤ capacity →
      bounded = (m.run? filter free).map
        (Outcome.map fun b => b.bounded (capacity - (output tr).length))) ∧
    (capacity < (output tr).length →
      ∃ o, bounded = some o ∧ o.result = .error .output ∧
        o.sink.text = Text.start capacity (output tr) ∧
        ∃ p e q, tr = p ++ e :: q ∧ CutAt m capacity p e o.machine) := by
  intro free tr bounded
  refine ⟨fun L limit => ?_, fun o run => ?_, ⟨_, prints_output tr⟩, fun fits => ?_,
    fun exceeds => ?_⟩
  · have enough : L - m.steps < m.turnsNeeded := by
      rw [turnsNeeded, limit, Option.getD_some]
      exact Nat.lt_succ_self _
    obtain ⟨o, ends⟩ : ∃ o, proceed filter m.turnsNeeded m free
        (filter.emit (.running m.pc)).toArray = .ended o := proceed_ends limit enough
    exact ⟨o, congrArg Progress.ended? ends⟩
  · obtain ⟨b, stretch, -⟩ := stretch_run run
    refine ⟨⟨b, stretch⟩, ?_⟩
    rw [text_of_run rfl run]
    exact String.empty_append
  · have same := proceed_fits rfl fits (filter.emit (.running m.pc)).toArray
    refine (congrArg Progress.ended? same).trans ?_
    unfold run?
    cases proceed filter m.turnsNeeded m free (filter.emit (.running m.pc)).toArray <;> rfl
  · obtain ⟨o, ends, error, text, cut⟩ :=
      proceed_exceeds rfl exceeds (filter.emit (.running m.pc)).toArray
    refine ⟨o, congrArg Progress.ended? ends, error, ?_, cut⟩
    rw [text]
    exact String.empty_append

theorem twelve_output_is_cut :
    ∃ o, (loaded twelve).run? .silent (Buffer.bounded {} 2) = some o ∧
      o.result = .error .output ∧ o.sink.text = "12" ∧
      (∃ p e, CutAt (loaded twelve) 2 p e o.machine) ∧ o.machine.pc = 3 ∧ o.machine.steps = 1 := by
  have printed : printedBytes ((loaded twelve).runTrace .silent ({} : Buffer)) = [12] := by
    decide +kernel
  have text : output ((loaded twelve).runTrace .silent ({} : Buffer)) = "12\n" := by
    rw [output, printed]
    decide
  obtain ⟨-, -, -, -, cut⟩ := output_is_cut_at_capacity .silent (loaded twelve) 2
  rw [text] at cut
  obtain ⟨o, run, error, stored, p, e, q, -, stop⟩ := cut (by decide)
  have place : ((loaded twelve).run? .silent (Buffer.bounded {} 2)).map
      (fun o => (o.machine.pc, o.machine.steps)) = some (3, 1) := by
    decide +kernel
  rw [run, Option.map_some, Option.some.injEq, Prod.mk.injEq] at place
  exact ⟨o, run, error, stored.trans (by decide), ⟨p, e, stop⟩, place⟩

end Machine
end ByteCpu
