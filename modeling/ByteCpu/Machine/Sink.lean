import ByteCpu.Text.Numeral

/-!
Sinks take the text that a program prints. A sink may refuse a write, having stored a part of it,
and may fail to flush. `Buffer` holds text in memory up to a capacity; `Stdout` is a line-buffered
device that may be full.
-/

set_option autoImplicit false

namespace ByteCpu

class Sink (σ : Type) where
  write : σ → String → σ × Bool
  flush : σ → σ × Bool

def printedLine (b : UInt8) : String := Text.decimal b.toNat ++ "\n"

/-- Text in memory. `room` is the number of bytes still accepted, without bound if absent; text
written is ASCII, one byte a character. -/
structure Buffer where
  text : String := ""
  room : Option Nat := none
  flushes : Nat := 0
  flushFails : Bool := false
  deriving DecidableEq, Repr

namespace Buffer

def write (b : Buffer) (s : String) : Buffer × Bool :=
  match b.room with
  | none => ({ b with text := b.text ++ s }, true)
  | some n =>
    let fits := s.toList.take n
    ({ b with text := b.text ++ String.ofList fits, room := some (n - fits.length) },
      s.length ≤ n)

def flush (b : Buffer) : Buffer × Bool := ({ b with flushes := b.flushes + 1 }, !b.flushFails)

instance : Sink Buffer := ⟨write, flush⟩

end Buffer

/-- Standard output. A full device accepts nothing; a line refused by it stays pending, and while
one does a flush fails. -/
structure Stdout where
  text : String := ""
  full : Bool := false
  pending : Bool := false
  deriving DecidableEq, Repr

namespace Stdout

def write (o : Stdout) (s : String) : Stdout × Bool :=
  if o.full then ({ o with pending := true }, false) else ({ o with text := o.text ++ s }, true)

def flush (o : Stdout) : Stdout × Bool := (o, !o.pending)

instance : Sink Stdout := ⟨write, flush⟩

end Stdout
end ByteCpu
