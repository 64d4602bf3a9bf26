import ByteCpu.Files.Path

/-!
Errors that keep a program from being loaded.
-/

set_option autoImplicit false

namespace ByteCpu

/-- A token that is no byte: its line, counted from one, and its place in the source, counted in
bytes of UTF-8. -/
structure BadToken where
  line : Nat
  token : String
  sourceName : String
  source : String
  offset : Nat
  length : Nat
  deriving DecidableEq, Repr

inductive LoadError where
  | fileNotFound (path : Path)
  | unreadable (path : Path)
  | invalidByte (bad : BadToken)
  | programTooLarge (length capacity : Nat)
  deriving DecidableEq, Repr

end ByteCpu
