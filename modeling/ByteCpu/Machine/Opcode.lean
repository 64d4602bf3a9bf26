import ByteCpu.Machine.AluOp

/-!
Opcodes and the bytes that encode them. In a byte the top two bits count the operands, the next
marks operations between registers, and the next marks instructions that set the program counter.
-/

set_option autoImplicit false

namespace ByteCpu

inductive Opcode where
  | hlt
  | ret
  | push
  | pop
  | prn
  | call
  | jmp
  | jeq
  | jne
  | ldi
  | alu (op : AluOp)
  deriving DecidableEq, Repr

namespace Opcode

def all : List Opcode :=
  [hlt, ret, push, pop, prn, call, jmp, jeq, jne, ldi] ++ AluOp.all.map alu

def byte : Opcode → UInt8
  | hlt => 0b00000001
  | ret => 0b00010001
  | push => 0b01000101
  | pop => 0b01000110
  | prn => 0b01000111
  | call => 0b01010000
  | jmp => 0b01010100
  | jeq => 0b01010101
  | jne => 0b01010110
  | ldi => 0b10000010
  | alu .add => 0b10100000
  | alu .sub => 0b10100001
  | alu .mul => 0b10100010
  | alu .div => 0b10100011
  | alu .cmp => 0b10100111

def decode (b : UInt8) : Option Opcode := all.find? fun op => op.byte == b

def mnemonic : Opcode → String
  | hlt => "HLT"
  | ret => "RET"
  | push => "PUSH"
  | pop => "POP"
  | prn => "PRN"
  | call => "CALL"
  | jmp => "JMP"
  | jeq => "JEQ"
  | jne => "JNE"
  | ldi => "LDI"
  | alu op => op.mnemonic

def operandCount : Opcode → Nat
  | hlt | ret => 0
  | push | pop | prn | call | jmp | jeq | jne => 1
  | ldi | alu _ => 2

def width (op : Opcode) : Nat := 1 + op.operandCount

theorem width_pos (op : Opcode) : 0 < op.width := Nat.lt_add_right op.operandCount Nat.zero_lt_one

theorem width_le (op : Opcode) : op.width ≤ 3 := by
  cases op with
  | alu op => exact Nat.le_refl 3
  | _ => decide

@[simp] theorem decode_byte (op : Opcode) : decode op.byte = some op := by
  cases op with
  | alu op => cases op <;> decide
  | _ => decide

theorem byte_eq_of_decode {b : UInt8} {op : Opcode} (h : decode b = some op) : op.byte = b := by
  simpa using List.find?_some h

end Opcode
end ByteCpu
