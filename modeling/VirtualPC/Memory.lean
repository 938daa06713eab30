/-
VirtualPC/Memory.lean

Guest RAM: a fixed, positive number of byte cells addressed from zero.  Every access is
checked against the size before anything is read or written, and nothing wraps here: the
16-bit address arithmetic of the processor happens before an address reaches RAM.  A write
returns the new RAM, so a failed one leaves the caller's RAM as it was.
-/
import VirtualPC.Text.Hex
import VirtualPC.Word

namespace VirtualPC

open Text

/-- Why RAM refused an access. -/
inductive MemoryError where
  /-- A single byte outside the cells. -/
  | addressOutOfRange (address size : Nat)
  /-- A block that does not lie inside the cells. -/
  | blockOverflow (start length size : Nat)
  /-- RAM without any cell. -/
  | invalidSize
deriving DecidableEq, Repr

/-- The text shown for a memory error. -/
def MemoryError.message : MemoryError → String
  | .addressOutOfRange address size =>
    "RAM address out of bounds: addr=0x" ++ hexLower address ++ " size=0x" ++ hexLower size
  | .blockOverflow start length size =>
    "data block exceeds RAM boundaries: start=0x" ++ hexLower start ++ " len=" ++ toString length
      ++ " size=0x" ++ hexLower size
  | .invalidSize => "RAM size must be positive"

/-- Byte cells addressed from zero; there is at least one. -/
structure Ram where
  cells : Array UInt8
  size_pos : 0 < cells.size

namespace Ram

/-- The number of cells. -/
def size (ram : Ram) : Nat := ram.cells.size

/-- RAM of the given size with every cell zero. -/
def zeroed (size : Nat) : Except MemoryError Ram :=
  if h : 0 < size then .ok ⟨Array.replicate size 0, by simpa using h⟩ else .error .invalidSize

/-- The byte at `address`. -/
@[inline] def read (ram : Ram) (address : Nat) : Except MemoryError UInt8 :=
  if h : address < ram.cells.size then .ok ram.cells[address]
  else .error (.addressOutOfRange address ram.cells.size)

/-- RAM with `byte` at `address`. -/
@[inline] def write (ram : Ram) (address : Nat) (byte : UInt8) : Except MemoryError Ram :=
  if h : address < ram.cells.size then
    .ok ⟨ram.cells.set address byte, by simpa using ram.size_pos⟩
  else .error (.addressOutOfRange address ram.cells.size)

/-- The big-endian word whose high byte is at `address`: the high byte is read first, so
that its failure is the one reported. -/
def readWord (ram : Ram) (address : Nat) : Except MemoryError UInt16 := do
  let high ← ram.read address
  let low ← ram.read (address + 1)
  return wordOfBytes high low

/-- The `length` bytes from `start` on. -/
def readBlock (ram : Ram) (start length : Nat) : Except MemoryError (List UInt8) :=
  if start + length ≤ ram.cells.size then
    .ok (ram.cells.extract start (start + length)).toList
  else .error (.blockOverflow start length ram.cells.size)

/-- The cells with the bytes of a block stored from `start` on; a byte that would fall
outside is dropped. -/
def storeFrom (cells : Array UInt8) (start : Nat) : List UInt8 → Array UInt8
  | [] => cells
  | byte :: rest => storeFrom (cells.setIfInBounds start byte) (start + 1) rest

@[simp] theorem size_storeFrom (cells : Array UInt8) (start : Nat) (block : List UInt8) :
    (storeFrom cells start block).size = cells.size := by
  induction block generalizing cells start with
  | nil => rfl
  | cons byte rest ih => simp [storeFrom, ih]

/-- RAM with `block` stored from `start` on.  The whole range is checked first. -/
@[inline] def writeBlock (ram : Ram) (start : Nat) (block : List UInt8) :
    Except MemoryError Ram :=
  if start + block.length ≤ ram.cells.size then
    .ok ⟨storeFrom ram.cells start block, by simpa using ram.size_pos⟩
  else .error (.blockOverflow start block.length ram.cells.size)

/-! ### What each operation does to the cells -/

variable {ram after : Ram} {address start length : Nat} {byte : UInt8} {block : List UInt8}

theorem read_eq_ok_iff : ram.read address = .ok byte ↔ ram.cells[address]? = some byte := by
  unfold read
  split <;> simp_all

theorem size_write (h : ram.write address byte = .ok after) : after.size = ram.size := by
  unfold write at h
  split at h <;> simp at h
  simp [← h, size]

theorem size_writeBlock (h : ram.writeBlock start block = .ok after) :
    after.size = ram.size := by
  unfold writeBlock at h
  split at h <;> simp at h
  simp [← h, size]

end Ram

end VirtualPC
