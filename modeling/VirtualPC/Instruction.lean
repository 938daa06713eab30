/-
VirtualPC/Instruction.lean

Instructions, their encoding as bytes and their text in a listing.  An encoded instruction
is its opcode byte followed by the operand, addresses high byte first.  A byte that is no
assigned opcode is the one-byte instruction `unknown`: it can be listed and encoded, and
only execution refuses it.
-/
import VirtualPC.Instruction.Opcode
import VirtualPC.Text.Hex
import VirtualPC.Word

namespace VirtualPC

open Text

/-- An instruction together with its operand. -/
inductive Instruction where
  | nop
  | loadImmediate (value : UInt8)
  | store (address : UInt16)
  | load (address : UInt16)
  | addImmediate (value : UInt8)
  | subImmediate (value : UInt8)
  | jump (target : UInt16)
  | jumpIfZero (target : UInt16)
  | halt
  /-- A byte that stands for itself, as data or as an unassigned opcode. -/
  | unknown (byte : UInt8)
deriving DecidableEq, Repr

namespace Instruction

/-- The opcode, if the instruction has one. -/
def opcode? : Instruction → Option Opcode
  | nop => some .nop
  | loadImmediate _ => some .loadImmediate
  | store _ => some .store
  | load _ => some .load
  | addImmediate _ => some .addImmediate
  | subImmediate _ => some .subImmediate
  | jump _ => some .jump
  | jumpIfZero _ => some .jumpIfZero
  | halt => some .halt
  | unknown _ => none

/-- The encoded width in bytes; an unknown byte is its own encoding. -/
def width (i : Instruction) : Nat :=
  match i.opcode? with
  | some op => op.width
  | none => 1

/-- The bytes of the operand. -/
def operandBytes : Instruction → List UInt8
  | loadImmediate value | addImmediate value | subImmediate value => [value]
  | store address | load address | jump address | jumpIfZero address =>
    [highByte address, lowByte address]
  | nop | halt | unknown _ => []

/-- The bytes of an instruction. -/
def encode (i : Instruction) : List UInt8 :=
  match i with
  | unknown byte => [byte]
  | i => (i.opcode?.map Opcode.byte).toList ++ i.operandBytes

/-- The bytes of a program: its instructions one after another. -/
def encodeAll (program : List Instruction) : List UInt8 := program.flatMap encode

/-- The listing text of an instruction: its mnemonic, then `#` and two digits for an
immediate operand or four digits for an address. -/
def text : Instruction → String
  | nop => Opcode.nop.mnemonic
  | loadImmediate value => Opcode.loadImmediate.mnemonic ++ " #" ++ hexByte value
  | store address => Opcode.store.mnemonic ++ " " ++ hexWord address
  | load address => Opcode.load.mnemonic ++ " " ++ hexWord address
  | addImmediate value => Opcode.addImmediate.mnemonic ++ " #" ++ hexByte value
  | subImmediate value => Opcode.subImmediate.mnemonic ++ " #" ++ hexByte value
  | jump target => Opcode.jump.mnemonic ++ " " ++ hexWord target
  | jumpIfZero target => Opcode.jumpIfZero.mnemonic ++ " " ++ hexWord target
  | halt => Opcode.halt.mnemonic
  | unknown byte => "DB " ++ hexByte byte

theorem width_pos (i : Instruction) : 0 < i.width := by
  unfold width
  split
  · exact Nat.lt_of_lt_of_le Nat.one_pos (Nat.le_add_right 1 _)
  · exact Nat.one_pos

@[simp] theorem length_encode (i : Instruction) : i.encode.length = i.width := by
  cases i <;> rfl

end Instruction

end VirtualPC
