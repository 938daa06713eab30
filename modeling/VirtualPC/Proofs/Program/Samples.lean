/-
VirtualPC/Proofs/Program/Samples.lean

The built-in samples as programs.  A sample is assembled byte by byte; here it is the list of
its instructions (`Sample.program`), and the image is their encoding (`image_eq_encodeAll`).
The painting samples are one program with a count and a colouring (`painting`).

Each of the samples ends with a jump or a `halt`, and stores to a few cells only
(`Sample.Stores`): `counter` to its fixed address, the others to the start of the window.  It
is well formed wherever its image ends inside the guest space and those cells are inside RAM
and off the image (`wellFormed`); the rest, the targets of jumps above all, is in order for
every load address and every window.
-/
import VirtualPC.Machine.Sample
import VirtualPC.Proofs.Program.Safety

namespace VirtualPC.Sample

open Program

variable {base vram : UInt16} {count size : Nat} {value : Nat → UInt8} {s : Sample}

/-! ### Instructions -/

/-- Stores `value i` at `vram + i` for each `i` below `count`, then halts. -/
def painting (vram : UInt16) (count : Nat) (value : Nat → UInt8) : List Instruction :=
  ((List.range count).flatMap fun i =>
    [.loadImmediate (value i), .store (vram + UInt16.ofNat i)]) ++ [.halt]

/-- The instructions of a sample. -/
def program (base vram : UInt16) : Sample → List Instruction
  | demo => [.loadImmediate 0, .addImmediate 1, .jump (base + 2)]
  | counter => [.loadImmediate 0, .addImmediate 1, .store counterAddress, .jump (base + 2)]
  | vramFill => painting vram 256 fun _ => 0xE0
  | pulse => [.load vram, .addImmediate 0x11, .store vram, .jump base]
  | checkerboard => painting vram 512 fun i => if i % 2 = 0 then 1 else 0

theorem painter_eq_emitAll (base vram : UInt16) (count : Nat) (value : Nat → UInt8) :
    painter base vram count value
      = (Assembler.start base).emitAll (painting vram count value) := by
  unfold painter painting Assembler.emitAll
  rw [List.foldl_append, List.foldl_flatMap]
  rfl

/-- A sample is assembled from its instructions; the label of a loop is the address behind
its first instruction. -/
theorem assemble_eq_emitAll (base vram : UInt16) (s : Sample) :
    s.assemble base vram = (Assembler.start base).emitAll (s.program base vram) := by
  cases s with
  | demo | counter | pulse => rfl
  | vramFill | checkerboard => exact painter_eq_emitAll base vram _ _

/-- The image of a sample is the encoding of its instructions. -/
theorem image_eq_encodeAll (base vram : UInt16) (s : Sample) :
    s.image base vram = Instruction.encodeAll (s.program base vram) := by
  rw [image, assemble_eq_emitAll, Assembler.image_emitAll]
  rfl

/-! ### What the instructions refer to -/

theorem mem_painting {i : Instruction} :
    i ∈ painting vram count value ↔ i = .halt ∨
      ∃ k < count, i = .loadImmediate (value k) ∨ i = .store (vram + UInt16.ofNat k) := by
  simp [painting, or_comm]

/-- The cells that a sample stores to, for a window that starts at `vramStart`. -/
def Stores (vramStart : Nat) (s : Sample) (address : Nat) : Prop :=
  (s = counter ∧ address = counterAddress.toNat) ∨
    (vramStart ≤ address ∧ address < vramStart + s.vramBytes)

/-- The cells that a painting stores to do not go round at 64 KiB. -/
theorem toNat_vram_add (hdrawn : vram.toNat + count ≤ guestSpace) {k : Nat} (hk : k < count) :
    (vram + UInt16.ofNat k).toNat = vram.toNat + k := by
  unfold guestSpace at hdrawn
  rw [UInt16.toNat_add, UInt16.toNat_ofNat']
  omega

theorem store_mem_painting (hdrawn : vram.toNat + count ≤ guestSpace) {address : UInt16}
    (h : .store address ∈ painting vram count value) :
    vram.toNat ≤ address.toNat ∧ address.toNat < vram.toNat + count := by
  obtain h | ⟨k, hk, h | h⟩ := mem_painting.1 h
  · cases h
  · cases h
  · cases h
    rw [toNat_vram_add hdrawn hk]
    omega

/-- A sample stores where `Stores` says. -/
theorem stores_of_mem (hdrawn : vram.toNat + s.vramBytes ≤ guestSpace) {address : UInt16}
    (h : .store address ∈ s.program base vram) : s.Stores vram.toNat address.toNat := by
  cases s with
  | demo => simp [program] at h
  | counter =>
    obtain rfl : address = counterAddress := by simpa [program] using h
    exact .inl ⟨rfl, rfl⟩
  | pulse =>
    obtain rfl : address = vram := by simpa [program] using h
    exact .inr ⟨Nat.le_refl _, Nat.lt_succ_self _⟩
  | vramFill | checkerboard => exact .inr (store_mem_painting hdrawn h)

/-- A sample loads from cells that it stores to. -/
theorem stores_of_load_mem {address : UInt16} (h : .load address ∈ s.program base vram) :
    s.Stores vram.toNat address.toNat := by
  cases s with
  | demo | counter => simp [program] at h
  | pulse =>
    obtain rfl : address = vram := by simpa [program] using h
    exact .inr ⟨Nat.le_refl _, Nat.lt_succ_self _⟩
  | vramFill | checkerboard => simp [program, mem_painting] at h

/-- A sample jumps back to its start or to the instruction behind its first. -/
theorem jump_mem {target : UInt16}
    (h : .jump target ∈ s.program base vram ∨ .jumpIfZero target ∈ s.program base vram) :
    target = base + UInt16.ofNat (offset (s.program base vram) 0) ∨
      1 < (s.program base vram).length ∧
        target = base + UInt16.ofNat (offset (s.program base vram) 1) := by
  cases s with
  | demo | counter =>
    obtain rfl : target = base + 2 := by simpa [program] using h
    exact .inr ⟨by simp [program], rfl⟩
  | pulse =>
    obtain rfl : target = base := by simpa [program] using h
    exact .inl (by simp)
  | vramFill | checkerboard => simp [program, mem_painting] at h

theorem unknown_not_mem (byte : UInt8) : .unknown byte ∉ s.program base vram := by
  cases s with
  | demo | counter | pulse => simp [program]
  | vramFill | checkerboard => simp [program, mem_painting]

/-! ### Well-formedness -/

/-- The address of an instruction does not go round where the image ends below 64 KiB. -/
theorem toNat_label {program : List Instruction}
    (hreach : base.toNat + (Instruction.encodeAll program).length ≤ guestSpace) {index : Nat}
    (hlt : index < program.length) :
    (base + UInt16.ofNat (offset program index)).toNat = base.toNat + offset program index := by
  have hoffset := offset_lt_length (List.getElem?_eq_getElem hlt) (Instruction.width_pos _)
  unfold guestSpace at hreach
  rw [UInt16.toNat_add, UInt16.toNat_ofNat']
  omega

/-- A sample does not run past its end. -/
theorem closed (base vram : UInt16) (s : Sample) : Closed (s.program base vram) := by
  cases s with
  | demo =>
    exact ⟨[.loadImmediate 0, .addImmediate 1], .jump (base + 2), rfl, .inr ⟨_, rfl⟩⟩
  | counter =>
    exact ⟨[.loadImmediate 0, .addImmediate 1, .store counterAddress], .jump (base + 2), rfl,
      .inr ⟨_, rfl⟩⟩
  | pulse =>
    exact ⟨[.load vram, .addImmediate 0x11, .store vram], .jump base, rfl, .inr ⟨_, rfl⟩⟩
  | vramFill | checkerboard => exact ⟨_, .halt, rfl, .inl rfl⟩

/-- **A sample is well formed** wherever its image ends inside the guest space and inside RAM,
and the cells that it stores to are inside RAM and off the image. -/
theorem wellFormed (hreach : base.toNat + (s.image base vram).length ≤ guestSpace)
    (hfits : base.toNat + (s.image base vram).length ≤ size)
    (hdrawn : vram.toNat + s.vramBytes ≤ guestSpace)
    (hstores : ∀ address, s.Stores vram.toNat address → address < size ∧
      ¬ (base.toNat ≤ address ∧ address < base.toNat + (s.image base vram).length)) :
    WellFormed base.toNat size (s.program base vram) := by
  rw [image_eq_encodeAll] at hreach hfits hstores
  have hpos : 0 < (s.program base vram).length := by
    obtain ⟨front, last, heq, -⟩ := closed base vram s
    rw [heq]
    simp
  exact {
    known := fun byte => unknown_not_mem byte
    reachable := hreach
    fits := hfits
    jumps := by
      intro target h
      obtain rfl | ⟨hlt, rfl⟩ := jump_mem h
      · exact ⟨0, hpos, (toNat_label hreach hpos).symm⟩
      · exact ⟨1, hlt, (toNat_label hreach hlt).symm⟩
    loads := fun address h => (hstores _ (stores_of_load_mem h)).1
    stores := fun address h => hstores _ (stores_of_mem hdrawn h) }

end VirtualPC.Sample
