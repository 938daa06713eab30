/-
VirtualPC/Assembler.lean

A one-pass assembler.  Instructions and data bytes are emitted one at a time; `here` is the
address of the next one, so a label is the value of `here` at the place it names.
-/
import VirtualPC.Instruction

namespace VirtualPC

/-- A program image under construction, to be loaded at `base`. -/
structure Assembler where
  base : UInt16
  bytes : Array UInt8

namespace Assembler

/-- An empty image for the given base address. -/
def start (base : UInt16) : Assembler := ⟨base, #[]⟩

/-- The address of the next emitted byte. -/
def here (a : Assembler) : UInt16 := a.base + UInt16.ofNat a.bytes.size

/-- The number of bytes emitted so far. -/
def size (a : Assembler) : Nat := a.bytes.size

/-- The bytes emitted so far. -/
def image (a : Assembler) : List UInt8 := a.bytes.toList

/-- Emits one byte as it stands. -/
def byte (a : Assembler) (b : UInt8) : Assembler := { a with bytes := a.bytes.push b }

/-- Emits bytes as they stand. -/
def data (a : Assembler) (bs : List UInt8) : Assembler := bs.foldl byte a

/-- Emits an instruction. -/
def emit (a : Assembler) (i : Instruction) : Assembler := a.data i.encode

/-- Emits the instructions of a list in order. -/
def emitAll (a : Assembler) (program : List Instruction) : Assembler := program.foldl emit a

variable (a : Assembler)

@[simp] theorem bytes_data (bs : List UInt8) : (a.data bs).bytes = a.bytes ++ bs := by
  induction bs generalizing a with
  | nil => simp [data]
  | cons b bs ih => simpa [data, byte] using ih (a.byte b)

@[simp] theorem base_data (bs : List UInt8) : (a.data bs).base = a.base := by
  induction bs generalizing a with
  | nil => rfl
  | cons b bs ih => simpa [data, byte] using ih (a.byte b)

@[simp] theorem image_emit (i : Instruction) : (a.emit i).image = a.image ++ i.encode := by
  simp [image, emit]

@[simp] theorem base_emit (i : Instruction) : (a.emit i).base = a.base := by simp [emit]

theorem image_emitAll (program : List Instruction) :
    (a.emitAll program).image = a.image ++ Instruction.encodeAll program := by
  induction program generalizing a with
  | nil => simp [emitAll, Instruction.encodeAll]
  | cons i program ih => simpa [emitAll, Instruction.encodeAll] using ih (a.emit i)

end Assembler

end VirtualPC
