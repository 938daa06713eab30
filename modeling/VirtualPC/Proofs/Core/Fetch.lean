/-
VirtualPC/Proofs/Core/Fetch.lean

What the processor fetches.  The program counter goes round at 64 KiB, so the bytes of an
instruction are looked up at `pc`, `pc + 1`, ... in 16-bit arithmetic:

    Holds ram pc bytes

An instruction is fetched exactly where RAM holds its encoding, and then the core is left as
it was but for the counter, which has moved on by the width (`fetchInstruction_eq_ok_iff`).  A
fetch fails exactly where RAM ends before the instruction does
(`fetchInstruction_eq_error_iff`).
-/
import VirtualPC.Cpu
import VirtualPC.Proofs.Instruction.Decoding
import VirtualPC.Proofs.Memory.Cells

namespace VirtualPC.Core

open Instruction

/-! ### The program counter moved on -/

/-- The core with its program counter `n` bytes further on. -/
def advance (core : Core) (n : Nat) : Core :=
  { core with cpu.pc := core.cpu.pc + UInt16.ofNat n }

@[simp] theorem advance_ram (core : Core) (n : Nat) : (core.advance n).ram = core.ram := rfl

@[simp] theorem advance_pc (core : Core) (n : Nat) :
    (core.advance n).cpu.pc = core.cpu.pc + UInt16.ofNat n := rfl

@[simp] theorem advance_acc (core : Core) (n : Nat) :
    (core.advance n).cpu.acc = core.cpu.acc := rfl

@[simp] theorem advance_halted (core : Core) (n : Nat) :
    (core.advance n).cpu.halted = core.cpu.halted := rfl

@[simp] theorem advance_zero (core : Core) : core.advance 0 = core := by simp [advance]

theorem advance_advance (core : Core) (m n : Nat) :
    (core.advance m).advance n = core.advance (m + n) := by
  simp [advance, UInt16.add_assoc]

/-! ### Bytes at a guest address -/

/-- RAM holds `bytes` from a guest address on, going round at 64 KiB. -/
def Holds (ram : Ram) (pc : UInt16) (bytes : List UInt8) : Prop :=
  ∀ k byte, bytes[k]? = some byte → ram.cells[(pc + UInt16.ofNat k).toNat]? = some byte

theorem Holds.nil {ram : Ram} {pc : UInt16} : Holds ram pc [] := by
  intro k byte hbyte
  cases hbyte

theorem Holds.head {ram : Ram} {pc : UInt16} {byte : UInt8} {bytes : List UInt8}
    (h : Holds ram pc (byte :: bytes)) : ram.cells[pc.toNat]? = some byte := by
  simpa using h 0 byte rfl

theorem ofNat_succ_add (pc : UInt16) (k : Nat) :
    pc + UInt16.ofNat (k + 1) = pc + 1 + UInt16.ofNat k := by
  rw [Nat.add_comm k 1, UInt16.ofNat_add, UInt16.add_assoc]
  rfl

/-- An address behind the program counter, in unbounded arithmetic. -/
theorem toNat_add_ofNat (pc : UInt16) (k : Nat) :
    (pc + UInt16.ofNat k).toNat = (pc.toNat + k) % guestSpace := by
  rw [UInt16.toNat_add, UInt16.toNat_ofNat']
  exact Nat.add_mod_mod _ _ _

theorem Holds.tail {ram : Ram} {pc : UInt16} {byte : UInt8} {bytes : List UInt8}
    (h : Holds ram pc (byte :: bytes)) : Holds ram (pc + 1) bytes := by
  intro k b hb
  have hcell := h (k + 1) b (by simpa using hb)
  rwa [ofNat_succ_add] at hcell

theorem Holds.cons {ram : Ram} {pc : UInt16} {byte : UInt8} {bytes : List UInt8}
    (h : Holds ram (pc + 1) bytes) (hbyte : ram.cells[pc.toNat]? = some byte) :
    Holds ram pc (byte :: bytes) := by
  intro k b hb
  cases k with
  | zero =>
    cases hb
    simpa using hbyte
  | succ k =>
    rw [ofNat_succ_add]
    exact h k b hb

/-! ### Fetching a byte -/

theorem fetch_of_getElem? {core : Core} {byte : UInt8}
    (h : core.ram.cells[core.cpu.pc.toNat]? = some byte) :
    fetch core = .ok byte (core.advance 1) := by
  unfold fetch
  rw [Ram.read_eq_ok_iff.2 h]
  rfl

/-- Outside RAM there is no byte to fetch. -/
theorem fetch_of_size_le {core : Core} (h : core.ram.size ≤ core.cpu.pc.toNat) :
    fetch core = .error (.addressOutOfRange core.cpu.pc.toNat core.ram.size) core := by
  unfold fetch
  rw [Ram.read_of_size_le h]

/-- A fetch reads the byte at the program counter, or fails for want of one. -/
theorem fetch_cases (core : Core) :
    (∃ byte, core.ram.cells[core.cpu.pc.toNat]? = some byte ∧
      fetch core = .ok byte (core.advance 1)) ∨
    (core.ram.size ≤ core.cpu.pc.toNat ∧
      fetch core = .error (.addressOutOfRange core.cpu.pc.toNat core.ram.size) core) := by
  rcases Nat.lt_or_ge core.cpu.pc.toNat core.ram.size with hlt | hge
  · obtain ⟨byte, hbyte⟩ := Ram.getElem?_isSome hlt
    exact .inl ⟨byte, hbyte, fetch_of_getElem? hbyte⟩
  · exact .inr ⟨hge, fetch_of_size_le hge⟩

/-! ### What the fetch supplies -/

/-- The processor's fetch supplies the bytes RAM holds at the program counter. -/
theorem supplies_of_holds {core : Core} {bytes : List UInt8}
    (h : Holds core.ram core.cpu.pc bytes) :
    Supplies fetch core bytes (core.advance bytes.length) := by
  induction bytes generalizing core with
  | nil =>
    rw [List.length_nil, advance_zero]
    exact .nil core
  | cons byte rest ih =>
    have hrest := @ih (core.advance 1) h.tail
    rw [advance_advance, Nat.add_comm] at hrest
    exact .cons (fetch_of_getElem? h.head) hrest

/-- What the processor's fetch supplied, RAM holds at the program counter. -/
theorem holds_of_supplies {core after : Core} {bytes : List UInt8}
    (h : Supplies fetch core bytes after) :
    Holds core.ram core.cpu.pc bytes ∧ after = core.advance bytes.length := by
  induction h with
  | nil core => exact ⟨.nil, by rw [List.length_nil, advance_zero]⟩
  | @cons core mid after byte bytes hbyte hrest ih =>
    obtain ⟨byte', hcell, hfetch⟩ | ⟨-, hfetch⟩ := fetch_cases core
    · rw [hfetch] at hbyte
      cases hbyte
      obtain ⟨hholds, rfl⟩ := ih
      exact ⟨hholds.cons hcell, by rw [advance_advance, List.length_cons, Nat.add_comm]⟩
    · rw [hfetch] at hbyte
      cases hbyte

/-! ### Fetching an instruction -/

section FetchInstruction

variable {core after : Core} {i : Instruction} {cause : MemoryError}

/-- **An instruction is fetched exactly where it stands encoded in RAM** at the program counter,
which moves past it; nothing else changes. -/
theorem fetchInstruction_eq_ok_iff : fetchInstruction core = .ok i after ↔
    i.Canonical ∧ Holds core.ram core.cpu.pc i.encode ∧ after = core.advance i.width := by
  rw [← length_encode]
  constructor
  · intro h
    obtain ⟨hcanonical, hsupply⟩ := decodeFrom_eq_ok_iff.1 h
    exact ⟨hcanonical, holds_of_supplies hsupply⟩
  · rintro ⟨hcanonical, hholds, rfl⟩
    exact decodeFrom_eq_ok_iff.2 ⟨hcanonical, supplies_of_holds hholds⟩

/-- **No instruction can be fetched exactly where RAM ends before it does**: the counter moves
past the bytes that are there, and the next one is missing. -/
theorem fetchInstruction_eq_error_iff : fetchInstruction core = .error cause after ↔
    ∃ bytes, Incomplete bytes ∧ Holds core.ram core.cpu.pc bytes ∧
      after = core.advance bytes.length ∧ core.ram.size ≤ after.cpu.pc.toNat ∧
      cause = .addressOutOfRange after.cpu.pc.toNat core.ram.size := by
  constructor
  · intro h
    obtain ⟨bytes, mid, hbytes, hsupply, hfail⟩ := decodeFrom_eq_error_iff.1 h
    obtain ⟨hholds, rfl⟩ := holds_of_supplies hsupply
    obtain ⟨byte, -, hfetch⟩ | ⟨hsize, hfetch⟩ := fetch_cases (core.advance bytes.length)
    · rw [hfetch] at hfail
      cases hfail
    · rw [hfetch] at hfail
      cases hfail
      exact ⟨bytes, hbytes, hholds, rfl, hsize, rfl⟩
  · rintro ⟨bytes, hbytes, hholds, rfl, hsize, rfl⟩
    exact decodeFrom_eq_error_iff.2
      ⟨bytes, _, hbytes, supplies_of_holds hholds, fetch_of_size_le hsize⟩

/-- Where RAM holds the encoding of an instruction, that instruction is fetched and the
program counter passes it. -/
theorem fetchInstruction_of_holds {op : Opcode} (hop : i.opcode? = some op)
    (h : Holds core.ram core.cpu.pc i.encode) :
    fetchInstruction core = .ok i (core.advance i.width) :=
  fetchInstruction_eq_ok_iff.2 ⟨canonical_of_opcode? hop, h, rfl⟩

/-- An unassigned byte at the program counter is fetched as it stands. -/
theorem fetchInstruction_of_unassigned {byte : UInt8} (hop : Opcode.ofByte? byte = none)
    (h : core.ram.cells[core.cpu.pc.toNat]? = some byte) :
    fetchInstruction core = .ok (.unknown byte) (core.advance 1) :=
  fetchInstruction_eq_ok_iff.2 ⟨hop, Holds.nil.cons h, rfl⟩

/-- A fetched instruction stands encoded in RAM. -/
theorem holds_of_fetchInstruction (h : fetchInstruction core = .ok i after) :
    Holds core.ram core.cpu.pc i.encode ∧ after = core.advance i.width :=
  (fetchInstruction_eq_ok_iff.1 h).2

end FetchInstruction

end VirtualPC.Core
