import ByteCpu.Text.Utf8

/-!
Paths: byte sequences whose components stand between slashes. They need not be UTF-8; to be shown,
ill-formed parts become replacement characters.
-/

set_option autoImplicit false

namespace ByteCpu

structure Path where
  bytes : List UInt8
  deriving DecidableEq, Repr

namespace Path

def ofString (s : String) : Path := ⟨s.toUTF8.toList⟩

def display (p : Path) : String := String.ofList (Text.Utf8.decodeLossy p.bytes)

/-- The components, empty ones included: one before a leading slash, one after a final one. -/
def components (p : Path) : List (List UInt8) := p.bytes.splitOn 0x2F

end Path
end ByteCpu
