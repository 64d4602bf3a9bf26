import ByteCpu.Machine.Opcode
import ByteCpu.Text.Numeral

/-!
Listings: a program swept from address 0, each line an instruction with its operand bytes or a
byte of data. Data is what is no opcode, and an opcode whose operands are cut off by the end.
-/

set_option autoImplicit false

namespace ByteCpu.Listing

inductive Kind where
  | instruction (op : Opcode)
  | data
  deriving DecidableEq, Repr

/-- A line on its own may hold any bytes, whatever its kind. -/
structure Line where
  address : Nat
  bytes : List UInt8
  kind : Kind
  deriving DecidableEq, Repr

def Line.read (address : Nat) (b : UInt8) (rest : List UInt8) : Line :=
  match Opcode.decode b with
  | none => ⟨address, [b], .data⟩
  | some op =>
    let operands := rest.take op.operandCount
    if operands.length = op.operandCount then ⟨address, b :: operands, .instruction op⟩
    else ⟨address, [b], .data⟩

def sweep (address : Nat) : List UInt8 → List Line
  | [] => []
  | b :: rest =>
    let line := Line.read address b rest
    line :: sweep (address + line.bytes.length) (rest.drop (line.bytes.length - 1))
termination_by program => program.length
decreasing_by simp only [List.length_drop, List.length_cons]; omega

def ofProgram (program : List UInt8) : List Line := sweep 0 program

def Kind.name : Kind → String
  | .instruction op => op.mnemonic
  | .data => "Data"

def hexByte (b : UInt8) : String := Text.hex 2 b.toNat

def register (b : UInt8) : String := "R" ++ Text.decimal b.toNat

namespace Line

def columns (l : Line) : String :=
  let raw := String.intercalate " " (l.bytes.map hexByte)
  Text.hex 2 l.address ++ ":  " ++ raw ++ String.ofList (List.replicate (8 - raw.length) ' ') ++
    "  "

/-- The instruction or data in words; absent where a byte that has to be shown is missing. Bytes
beyond those that the kind needs are shown as further registers, or not at all. -/
def text? (l : Line) : Option String :=
  match l.kind, l.bytes with
  | .data, b :: _ => some (".byte 0b" ++ Text.binary 8 b.toNat)
  | .data, [] => none
  | .instruction .ldi, _ :: r :: v :: _ =>
    some (Opcode.ldi.mnemonic ++ " " ++ register r ++ "," ++ Text.decimal v.toNat)
  | .instruction .ldi, _ => none
  | .instruction op, _ :: [] => some op.mnemonic
  | .instruction op, _ :: operands =>
    some (op.mnemonic ++ " " ++ String.intercalate "," (operands.map register))
  | .instruction _, [] => none

def render? (l : Line) : Option String := l.text?.map (l.columns ++ ·)

example : render? ⟨0, [0x82, 0, 8], .instruction .ldi⟩ = some "00:  82 00 08  LDI R0,8" := by
  decide +kernel
example : render? ⟨4, [0xFF], .data⟩ = some "04:  ff        .byte 0b11111111" := by decide +kernel

end Line
end ByteCpu.Listing
