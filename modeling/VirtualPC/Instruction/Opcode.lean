/-
VirtualPC/Instruction/Opcode.lean

The assigned opcode bytes, their mnemonics and the operand each one takes.  Two opcodes may
share a mnemonic (both loads are written `LDA`): the shape of the operand tells them apart.
-/

namespace VirtualPC

/-- The operand bytes that follow an opcode byte. -/
inductive OperandShape where
  | none
  /-- One byte, used as it stands. -/
  | immediate
  /-- A 16-bit address, high byte first. -/
  | address
deriving DecidableEq, Repr

/-- The number of operand bytes. -/
def OperandShape.width : OperandShape → Nat
  | .none => 0
  | .immediate => 1
  | .address => 2

/-- An operation of the processor. -/
inductive Opcode where
  | nop
  | loadImmediate
  | store
  | load
  | addImmediate
  | jump
  | jumpIfZero
  | subImmediate
  | halt
deriving DecidableEq, Repr

namespace Opcode

/-- Every opcode, by ascending opcode byte. -/
def all : List Opcode :=
  [nop, loadImmediate, store, load, addImmediate, jump, jumpIfZero, subImmediate, halt]

/-- The byte an opcode is encoded as. -/
def byte : Opcode → UInt8
  | nop => 0x00
  | loadImmediate => 0x01
  | store => 0x02
  | load => 0x03
  | addImmediate => 0x04
  | jump => 0x05
  | jumpIfZero => 0x06
  | subImmediate => 0x07
  | halt => 0xFF

/-- The opcode a byte is assigned to. -/
def ofByte? (b : UInt8) : Option Opcode :=
  if b = 0x00 then some nop
  else if b = 0x01 then some loadImmediate
  else if b = 0x02 then some store
  else if b = 0x03 then some load
  else if b = 0x04 then some addImmediate
  else if b = 0x05 then some jump
  else if b = 0x06 then some jumpIfZero
  else if b = 0x07 then some subImmediate
  else if b = 0xFF then some halt
  else none

/-- The operand an opcode takes. -/
def operand : Opcode → OperandShape
  | nop | halt => .none
  | loadImmediate | addImmediate | subImmediate => .immediate
  | store | load | jump | jumpIfZero => .address

/-- The encoded width: the opcode byte and its operand. -/
def width (op : Opcode) : Nat := 1 + op.operand.width

/-- The name used in listings. -/
def mnemonic : Opcode → String
  | nop => "NOP"
  | loadImmediate | load => "LDA"
  | store => "STA"
  | addImmediate => "ADD"
  | subImmediate => "SUB"
  | jump => "JMP"
  | jumpIfZero => "JZ"
  | halt => "HALT"

@[simp] theorem ofByte?_byte (op : Opcode) : ofByte? op.byte = some op := by
  cases op <;> rfl

theorem byte_of_ofByte? {b : UInt8} {op : Opcode} (h : ofByte? b = some op) : op.byte = b := by
  unfold ofByte? at h
  grind [byte]

/-- The unassigned bytes are all but these nine. -/
theorem ofByte?_eq_none_iff {b : UInt8} :
    ofByte? b = none ↔ b ∉ [0x00, 0x01, 0x02, 0x03, 0x04, 0x05, 0x06, 0x07, 0xFF] := by
  simp only [List.mem_cons, List.not_mem_nil, or_false]
  unfold ofByte?
  grind

theorem mem_all (op : Opcode) : op ∈ all := by cases op <;> decide

end Opcode

end VirtualPC
