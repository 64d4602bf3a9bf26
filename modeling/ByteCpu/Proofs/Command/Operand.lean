import ByteCpu.Command.Arguments
import ByteCpu.Proofs.Machine.Instr

/-!
Command lines of one operand. An operand that the program itself takes for a path stands for a run
of it without options.
-/

set_option autoImplicit false

namespace ByteCpu.Command

/-- An argument that is no operand unless two lone dashes stand before it. -/
def isDashed : Arg → Bool
  | 0x2D :: _ :: _ => true
  | _ => false

namespace Reading

theorem flag_of_mem {f : Flag} (own : f ∈ Scope.flags none) :
    ∃ stop, ({} : Reading).flag none f = .error stop := by
  simp only [Scope.flags, List.mem_cons, List.not_mem_nil, or_false] at own
  obtain rfl | rfl := own
  · exact ⟨_, rfl⟩
  · exact ⟨_, rfl⟩

theorem long_ne_ok (body : Arg) (r : Reading) : ({} : Reading).long none body ≠ .ok r := by
  intro h
  unfold long at h
  dsimp only at h
  split at h
  · cases h
  next named _ =>
    obtain ⟨cs, -, found⟩ := Option.bind_eq_some_iff.1 named
    have own := List.mem_of_find?_eq_some found
    cases own with
    | tail _ own => cases own with
      | tail _ own => cases own
  · cases h
  next f named _ =>
    obtain ⟨cs, -, found⟩ := Option.bind_eq_some_iff.1 named
    obtain ⟨stop, error⟩ := flag_of_mem (List.mem_of_find?_eq_some found)
    rw [error] at h
    cases h

theorem eq_of_letters {cs : List (Option Char)} {r : Reading}
    (h : letters none {} cs = .ok r) : r = {} := by
  unfold letters at h
  split at h
  · cases h
    rfl
  · cases h
  · split at h
    · cases h
    next f found =>
      obtain ⟨stop, error⟩ := flag_of_mem (List.mem_of_find?_eq_some found)
      rw [error] at h
      cases h

theorem eq_of_take_dashed {a : Arg} {r : Reading} (dashed : isDashed a = true)
    (h : ({} : Reading).take none a = .ok r) : r = {} ∨ r = { trailing := true } := by
  obtain ⟨b, bs, rfl⟩ : ∃ b bs, a = 0x2D :: b :: bs := by
    unfold isDashed at dashed
    split at dashed
    · exact ⟨_, _, rfl⟩
    · cases dashed
  unfold take at h
  rw [if_neg Bool.false_ne_true] at h
  split at h
  · cases h
    exact .inr rfl
  · exact absurd h (long_ne_ok _ r)
  · exact .inl (eq_of_letters h)
  next other => exact absurd rfl (other b bs)

theorem take_of_undashed {a : Arg} (undashed : isDashed a = false) (scope : Scope) :
    ({} : Reading).take scope a = .ok { pending := some (.operand a) } := by
  unfold take
  rw [if_neg Bool.false_ne_true]
  split
  · cases undashed
  · cases undashed
  · cases undashed
  · rfl

end Reading

def dashes : Arg := [0x2D, 0x2D]

def runWord : Arg := "run".toUTF8.toList

theorem readProgram_pending (trailing : Bool) {a : Arg} {path : Path} {options : Options}
    (h : readProgram { pending := some (.operand a), trailing } [] = .ok (.run path options)) :
    a ≠ [] ∧ path = ⟨a⟩ ∧ options = {} := by
  by_cases empty : a = []
  · simp [readProgram, Reading.settle, Reading.fail, empty, bind, Except.bind] at h
  · simp [readProgram, Reading.settle, empty, bind, Except.bind, pure, Except.pure] at h
    exact ⟨empty, h.1.symm, h.2.symm⟩

theorem readSubcommand_pending (trailing : Bool) {a : Arg} (nonempty : a ≠ []) :
    readSubcommand .run { pending := some (.operand a), trailing } [] = .ok (.run ⟨a⟩ {}) := by
  simp [readSubcommand, Reading.settle, nonempty, Subcommand.request, bind, Except.bind, pure,
    Except.pure]

theorem read_run (args : List Arg) :
    Request.read (runWord :: args) = readSubcommand .run {} args := by
  have word : Word.ofArg? runWord = some (.subcommand .run) := by decide +kernel
  simp only [Request.read, readProgram, word, Bool.false_eq_true, if_false]
  cases readSubcommand .run {} args <;> rfl

/-- What a lone argument comes to that is read as a path: the same as with the subcommand in
front. -/
theorem read_operand {a : Arg} {path : Path} {options : Options}
    (h : Request.read [a] = .ok (.run path options)) :
    path = ⟨a⟩ ∧ options = {} ∧ Request.read [runWord, a] = .ok (.run path options) := by
  unfold Request.read readProgram at h
  dsimp only at h
  rw [if_neg Bool.false_ne_true] at h
  split at h
  · cases h
  · simp [readSubcommand, Reading.settle, Reading.fail, bind, Except.bind] at h
  · cases dashed : isDashed a with
    | true =>
      obtain ⟨r, taken, rest⟩ := bind_eq_ok_iff.1 h
      obtain rfl | rfl := Reading.eq_of_take_dashed dashed taken <;> cases rest
    | false =>
      rw [Reading.take_of_undashed dashed] at h
      obtain ⟨nonempty, rfl, rfl⟩ := readProgram_pending false h
      rw [read_run, readSubcommand, Reading.take_of_undashed dashed]
      exact ⟨rfl, rfl, readSubcommand_pending false nonempty⟩

theorem read_dashes_operand {a : Arg} {path : Path} {options : Options}
    (h : Request.read [dashes, a] = .ok (.run path options)) :
    path = ⟨a⟩ ∧ options = {} ∧ Request.read [runWord, dashes, a] = .ok (.run path options) := by
  have word : Word.ofArg? dashes = none := by decide +kernel
  simp only [Request.read, readProgram, word, Bool.false_eq_true, if_false] at h
  obtain ⟨nonempty, rfl, rfl⟩ := readProgram_pending true h
  rw [read_run]
  exact ⟨rfl, rfl, readSubcommand_pending true nonempty⟩

end ByteCpu.Command
