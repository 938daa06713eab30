/-
VirtualPC/Instruction/Decode.lean

Decoding.  `decodeWith` reads the operand bytes of an opcode through any stateful fetch: the
processor passes one that reads RAM at the program counter and may fail, the inspector
(`decodeAt`) one that walks an image and reads zero past its end.  `sweep` decodes a whole
image from its first byte, each instruction starting where the one before it ends.
-/
import VirtualPC.Instruction

namespace VirtualPC.Instruction

variable {ε σ : Type}

/-- The instruction of an opcode and its operand; an immediate operand is the low byte. -/
def ofOperand (op : Opcode) (operand : UInt16) : Instruction :=
  match op with
  | .nop => nop
  | .loadImmediate => loadImmediate (lowByte operand)
  | .store => store operand
  | .load => load operand
  | .addImmediate => addImmediate (lowByte operand)
  | .subImmediate => subImmediate (lowByte operand)
  | .jump => jump operand
  | .jumpIfZero => jumpIfZero operand
  | .halt => halt

/-- The operand of the given shape, its bytes taken from `fetch`, high byte first. -/
@[inline] def fetchOperand (shape : OperandShape) (fetch : EStateM ε σ UInt8) :
    EStateM ε σ UInt16 :=
  match shape with
  | .none => pure 0
  | .immediate => do return (← fetch).toUInt16
  | .address => do
    let high ← fetch
    let low ← fetch
    return wordOfBytes high low

/-- The instruction that `byte` introduces.  `fetch` is called once for each operand byte,
never for an unassigned byte, and the first failing call ends the decoding. -/
@[inline] def decodeWith (byte : UInt8) (fetch : EStateM ε σ UInt8) :
    EStateM ε σ Instruction :=
  match Opcode.ofByte? byte with
  | none => pure (unknown byte)
  | some op => do return ofOperand op (← fetchOperand op.operand fetch)

/-- Takes the next byte of the rest of an image, zero when nothing is left. -/
def nextByte : EStateM Empty (List UInt8) UInt8 := fun rest =>
  .ok (rest.headD 0) rest.tail

/-- The instruction that `byte` introduces in an image in which `rest` follows it; operand
bytes past the end of the image read as zero. -/
def decodeHead (byte : UInt8) (rest : List UInt8) : Instruction :=
  match decodeWith byte nextByte rest with
  | .ok i _ => i

/-- The instruction at an offset of an image, if the offset lies in the image. -/
def decodeAt (image : List UInt8) (offset : Nat) : Option Instruction :=
  match image.drop offset with
  | [] => none
  | byte :: rest => some (decodeHead byte rest)

/-- The instructions of the part of an image that starts at `offset`, each with the offset
it starts at.  The first instruction takes its opcode byte and the bytes of its operand. -/
def sweepFrom (offset : Nat) : List UInt8 → List (Nat × Instruction)
  | [] => []
  | byte :: rest =>
    let i := decodeHead byte rest
    (offset, i) :: sweepFrom (offset + i.width) (rest.drop (i.width - 1))
termination_by part => part.length
decreasing_by simp only [List.length_drop, List.length_cons]; omega

/-- The linear sweep of an image: its instructions with their offsets. -/
def sweep (image : List UInt8) : List (Nat × Instruction) := sweepFrom 0 image

end VirtualPC.Instruction
