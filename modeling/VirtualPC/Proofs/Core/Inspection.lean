/-
VirtualPC/Proofs/Core/Inspection.lean

The processor executes what the inspector shows.  The inspector decodes bytes at an offset of
an image and reads zeros behind its end; the processor fetches from RAM at a program counter
that goes round at 64 KiB, and fails where there is no RAM.  They are compared on the three
bytes from the program counter on, which is what the longest instruction has:

    ahead core

Design.  Both decode an instruction exactly if it stands encoded in what they read, so the
processor fetches what the inspector shows of these bytes wherever RAM has all the bytes of it
(`fetchInstruction_eq_ok_iff_shown`).  What an instruction then does is said of one register at
a time: the counter, the accumulator, the cells, the halt flag (`Effect`).

Main result: `step_as_shown`.
-/
import VirtualPC.Proofs.Core.Step

namespace VirtualPC.Core

open Instruction

variable {core after : Core} {i : Instruction} {outcome : Outcome} {bytes : List UInt8} {k : Nat}

/-! ### The bytes at the program counter -/

/-- The cell `k` places behind the program counter, which goes round at 64 KiB. -/
def cellAhead (core : Core) (k : Nat) : Nat := (core.cpu.pc.toNat + k) % guestSpace

/-- The byte in that cell, zero where there is no RAM. -/
def byteAhead (core : Core) (k : Nat) : UInt8 := (core.ram.cells[core.cellAhead k]?).getD 0

/-- The three bytes from the program counter on. -/
def ahead (core : Core) : List UInt8 := [core.byteAhead 0, core.byteAhead 1, core.byteAhead 2]

theorem getElem?_ahead (core : Core) (hk : k < 3) : core.ahead[k]? = some (core.byteAhead k) := by
  match k, hk with
  | 0, _ | 1, _ | 2, _ => rfl

theorem getElem?_cellAhead (h : core.cellAhead k < core.ram.size) :
    core.ram.cells[core.cellAhead k]? = some (core.byteAhead k) := by
  obtain ⟨byte, hbyte⟩ := Ram.getElem?_isSome h
  rw [byteAhead, hbyte, Option.getD_some]

/-- RAM holds bytes at the program counter exactly if they are the first ones ahead and RAM has
their cells. -/
theorem holds_iff_prefix_ahead (hlength : bytes.length ≤ 3) :
    Holds core.ram core.cpu.pc bytes ↔
      bytes <+: core.ahead ∧ ∀ k < bytes.length, core.cellAhead k < core.ram.size := by
  rw [List.prefix_iff_getElem?]
  constructor
  · intro h
    have hcell : ∀ k (hk : k < bytes.length),
        core.ram.cells[core.cellAhead k]? = some bytes[k] := by
      intro k hk
      have hbyte := h k _ (List.getElem?_eq_getElem hk)
      rwa [toNat_add_ofNat] at hbyte
    refine ⟨?_, ?_⟩
    · intro k hk
      rw [getElem?_ahead core (by omega), byteAhead, hcell k hk, Option.getD_some]
    · intro k hk
      exact (Array.getElem?_eq_some_iff.1 (hcell k hk)).1
  · rintro ⟨hstands, hcells⟩ k byte hbyte
    obtain ⟨hk, rfl⟩ := List.getElem?_eq_some_iff.1 hbyte
    have hshown := hstands k hk
    rw [getElem?_ahead core (by omega)] at hshown
    rw [toNat_add_ofNat, ← hshown]
    exact getElem?_cellAhead (hcells k hk)

/-- What RAM holds at the program counter stands at the same place of its image, unless the
counter goes round. -/
theorem prefix_drop_of_holds {ram : Ram} {pc : UInt16} (h : Holds ram pc bytes)
    (hreach : pc.toNat + bytes.length ≤ guestSpace) :
    bytes <+: ram.cells.toList.drop pc.toNat := by
  rw [List.prefix_iff_getElem?]
  intro k hk
  have hcell := h k _ (List.getElem?_eq_getElem hk)
  rw [toNat_add_ofNat, Nat.mod_eq_of_lt (by omega)] at hcell
  rw [List.getElem?_drop, Array.getElem?_toList, hcell]

/-! ### The instruction shown -/

/-- The inspector always shows an instruction of the bytes ahead. -/
theorem exists_shown (core : Core) : ∃ i, decodeAt core.ahead 0 = some i := ⟨_, rfl⟩

/-- An instruction is shown exactly if it stands encoded ahead. -/
theorem decodeAt_ahead_iff :
    decodeAt core.ahead 0 = some i ↔ i.Canonical ∧ i.encode <+: core.ahead := by
  have hroom : 0 + i.width ≤ core.ahead.length := by
    rw [Nat.zero_add]
    exact width_le i
  exact decodeAt_eq_some_iff hroom

theorem holds_encode_iff :
    Holds core.ram core.cpu.pc i.encode ↔
      i.encode <+: core.ahead ∧ ∀ k < i.width, core.cellAhead k < core.ram.size := by
  rw [← length_encode]
  apply holds_iff_prefix_ahead
  rw [length_encode]
  exact width_le i

/-- **The processor fetches what the inspector shows**, wherever RAM has all the bytes of it. -/
theorem fetchInstruction_eq_ok_iff_shown : fetchInstruction core = .ok i after ↔
    decodeAt core.ahead 0 = some i ∧ (∀ k < i.width, core.cellAhead k < core.ram.size) ∧
      after = core.advance i.width := by
  rw [fetchInstruction_eq_ok_iff, decodeAt_ahead_iff, holds_encode_iff, and_assoc, and_assoc]

/-! ### Effects -/

/-- The address of the instruction that follows. -/
def nextPc (cpu : Cpu) (i : Instruction) : Nat :=
  let behind := (cpu.pc.toNat + i.width) % guestSpace
  match i with
  | .jump target => target.toNat
  | .jumpIfZero target => if cpu.acc = 0 then target.toNat else behind
  | _ => behind

/-- The accumulator that an instruction leaves. -/
def nextAcc (core : Core) (i : Instruction) : Nat :=
  let acc := core.cpu.acc.toNat
  match i with
  | .loadImmediate value => value.toNat
  | .load address => ((core.ram.cells[address.toNat]?).getD 0).toNat
  | .addImmediate value => (acc + value.toNat) % 256
  | .subImmediate value => (acc + 256 - value.toNat) % 256
  | _ => acc

/-- What an instruction does to the registers and to RAM, in unbounded arithmetic. -/
structure Effect (before : Core) (i : Instruction) (after : Core) : Prop where
  pc : after.cpu.pc.toNat = nextPc before.cpu i
  acc : after.cpu.acc.toNat = nextAcc before i
  /-- A store writes the accumulator. -/
  stored : ∀ address, i = .store address →
    after.ram.cells[address.toNat]? = some before.cpu.acc
  /-- No other cell changes. -/
  kept : ∀ k, (∀ address, i = .store address → k ≠ address.toNat) →
    after.ram.cells[k]? = before.ram.cells[k]?
  halted : after.cpu.halted = true ↔ i = .halt

theorem Effect.of_registers {cpu : Cpu} (hstore : ∀ address, i ≠ .store address)
    (hpc : cpu.pc.toNat = nextPc core.cpu i) (hacc : cpu.acc.toNat = nextAcc core i)
    (hhalted : cpu.halted = true ↔ i = .halt) : Effect core i ⟨cpu, core.ram⟩ where
  pc := hpc
  acc := hacc
  stored address h := (hstore address h).elim
  kept _ _ := rfl
  halted := hhalted

theorem toNat_advance_pc (core : Core) (n : Nat) :
    (core.advance n).cpu.pc.toNat = (core.cpu.pc.toNat + n) % guestSpace :=
  toNat_add_ofNat _ _

/-- An instruction that is carried out behind its fetch has its effect. -/
theorem effect_of_execute {pc : UInt16} (hrun : core.cpu.halted = false)
    (h : execute pc i (core.advance i.width) = .ok outcome after) : Effect core i after := by
  have hpc := toNat_advance_pc core i.width
  cases i with
  | store address =>
    rcases hwrite : core.ram.write address.toNat core.cpu.acc with failure | ram
    · simp [execute, hwrite] at h
    · simp only [execute, advance_ram, advance_acc, hwrite] at h
      cases h
      exact {
        pc := hpc
        acc := rfl
        stored := by
          rintro _ ⟨⟩
          exact (Ram.getElem?_write hwrite _).trans (if_pos rfl)
        kept := by
          intro k hk
          exact (Ram.getElem?_write hwrite k).trans (if_neg (hk address rfl))
        halted := by simp [hrun] }
  | load address =>
    rcases hread : core.ram.read address.toNat with failure | byte
    · simp [execute, hread] at h
    · simp only [execute, advance_ram, hread] at h
      cases h
      have hbyte := Ram.read_eq_ok_iff.1 hread
      exact .of_registers (by simp) hpc (by simp [nextAcc, hbyte]) (by simp [hrun])
  | addImmediate value =>
    cases h
    exact .of_registers (by simp) hpc (UInt8.toNat_add _ _) (by simp [hrun])
  | subImmediate value =>
    cases h
    have hvalue := value.toNat_lt
    have hacc : (core.cpu.acc - value).toNat = (core.cpu.acc.toNat + 256 - value.toNat) % 256 := by
      rw [UInt8.toNat_sub]
      omega
    exact .of_registers (by simp) hpc hacc (by simp [hrun])
  | jump target =>
    cases h
    exact .of_registers (by simp) rfl rfl (by simp [hrun])
  | jumpIfZero target =>
    by_cases hacc : core.cpu.acc = 0
    · simp only [execute, advance_acc, hacc, ↓reduceIte] at h
      cases h
      exact .of_registers (by simp) (by simp [nextPc, hacc]) (by simp [nextAcc, hacc])
        (by simp [hrun])
    · simp only [execute, advance_acc, hacc, ↓reduceIte] at h
      cases h
      exact .of_registers (by simp) (by simpa [nextPc, hacc] using hpc) rfl (by simp [hrun])
  | unknown byte => cases h
  | nop | loadImmediate =>
    cases h
    exact .of_registers (by simp) hpc rfl (by simp [hrun])
  | halt =>
    cases h
    exact .of_registers (by simp) hpc rfl (by simp)

/-! ### Steps -/

/-- RAM has every cell that an instruction at the program counter uses, and the instruction is
one of the nine. -/
structure Executable (core : Core) (i : Instruction) : Prop where
  bytes : ∀ k < i.width, core.cellAhead k < core.ram.size
  operand : ∀ address, i = .load address ∨ i = .store address → address.toNat < core.ram.size
  known : ∀ byte, i ≠ .unknown byte

/-- What is shown and can be executed is executed. -/
theorem exists_step (hrun : core.cpu.halted = false) (hshown : decodeAt core.ahead 0 = some i)
    (h : Executable core i) :
    ∃ after, step core = .ok (.executed i) after ∧ Effect core i after := by
  have hfetch := fetchInstruction_eq_ok_iff_shown.2 ⟨hshown, h.bytes, rfl⟩
  rw [step_of_fetch hrun hfetch]
  obtain ⟨after, hexecute, -⟩ | ⟨cause, -, herror⟩ :=
    execute_cases core.cpu.pc i (core.advance i.width)
  · exact ⟨after, hexecute, effect_of_execute hrun hexecute⟩
  · obtain ⟨-, ⟨byte, hi, -⟩ | ⟨address, hi, hsize, -⟩⟩ := execute_eq_error_iff.1 herror
    · exact (h.known byte hi).elim
    · exact absurd (h.operand address hi) (Nat.not_lt.2 hsize)

/-- A step that succeeds had everything it uses. -/
theorem executable_of_step_ok (hrun : core.cpu.halted = false)
    (hshown : decodeAt core.ahead 0 = some i) (h : step core = .ok outcome after) :
    Executable core i := by
  obtain ⟨j, hfetch, hexecute⟩ := execute_of_step_ok hrun h
  obtain ⟨hj, hbytes, -⟩ := fetchInstruction_eq_ok_iff_shown.1 hfetch
  obtain rfl : j = i := Option.some.inj (hj.symm.trans hshown)
  have hno : ∀ cause last, execute core.cpu.pc j (core.advance j.width) ≠ .error cause last := by
    intro cause last herror
    rw [hexecute] at herror
    cases herror
  refine ⟨hbytes, ?_, ?_⟩
  · intro address hi
    refine Nat.lt_of_not_le fun hsize => ?_
    exact hno _ _ (execute_eq_error_iff.2 ⟨rfl, .inr ⟨address, hi, hsize, rfl⟩⟩)
  · intro byte hi
    exact hno _ _ (execute_eq_error_iff.2 ⟨rfl, .inl ⟨byte, hi, rfl⟩⟩)

/-- **The processor executes what the inspector shows.**  Take any running processor and RAM of
any size, and the instruction that the inspector shows of the three bytes at the program
counter.  If RAM has every cell that this instruction uses and it is one of the nine, a step
executes it, with exactly its effect on the counter, the accumulator, the cells and the halt
flag; in every other case a step fails.  Where the instruction ends inside RAM and the counter
does not go round, it is also what the inspector shows of RAM itself. -/
theorem step_as_shown (core : Core) (hrun : core.cpu.halted = false) :
    ∃ i, decodeAt core.ahead 0 = some i ∧
      (Executable core i → ∃ after, step core = .ok (.executed i) after ∧ Effect core i after) ∧
      (¬ Executable core i → ∃ cause after, step core = .error cause after) ∧
      (core.cpu.pc.toNat + i.width ≤ min core.ram.size guestSpace →
        decodeAt core.ram.cells.toList core.cpu.pc.toNat = some i) := by
  obtain ⟨i, hshown⟩ := exists_shown core
  refine ⟨i, hshown, exists_step hrun hshown, ?_, ?_⟩
  · intro hnot
    rcases hstep : step core with ⟨outcome, after⟩ | ⟨cause, after⟩
    · exact (hnot (executable_of_step_ok hrun hshown hstep)).elim
    · exact ⟨cause, after, rfl⟩
  · intro hroom
    have hcells : ∀ k < i.width, core.cellAhead k < core.ram.size := by
      intro k hk
      rw [cellAhead, Nat.mod_eq_of_lt (by omega)]
      omega
    obtain ⟨hcanonical, hstands⟩ := decodeAt_ahead_iff.1 hshown
    have hholds := holds_encode_iff.2 ⟨hstands, hcells⟩
    have hsize : core.cpu.pc.toNat + i.width ≤ core.ram.cells.toList.length := by
      rw [Array.length_toList]
      exact Nat.le_trans hroom (Nat.min_le_left _ _)
    apply (decodeAt_eq_some_iff hsize).2
    refine ⟨hcanonical, prefix_drop_of_holds hholds ?_⟩
    rw [length_encode]
    omega

/-- RAM that fills the guest space, the same byte throughout. -/
def uniform (byte : UInt8) : Ram := ⟨Array.replicate guestSpace byte, by simp [guestSpace]⟩

theorem getElem?_uniform (byte : UInt8) {k : Nat} (hk : k < guestSpace) :
    (uniform byte).cells[k]? = some byte :=
  Array.getElem?_replicate.trans (if_pos hk)

@[simp] theorem size_uniform (byte : UInt8) : (uniform byte).size = guestSpace :=
  Array.size_replicate

/-- A processor in front of the end of the guest space, with a store across it. -/
def straddlingStore : Core := ⟨⟨0xFFFE, 7, false⟩, uniform 2⟩

theorem straddlingStore_executed : straddlingStore.cpu.halted = false ∧
    ∃ after, step straddlingStore = .ok (.executed (.store 0x0202)) after ∧
      after.cpu.pc.toNat = 1 ∧ after.ram.cells[0x0202]? = some 7 ∧
      after.ram.cells[1]? = some 2 := by
  have hcell : ∀ k, straddlingStore.cellAhead k < guestSpace := fun k => Nat.mod_lt _ (by decide)
  have hbyte : ∀ k, straddlingStore.byteAhead k = 2 := by
    intro k
    show ((uniform 2).cells[straddlingStore.cellAhead k]?).getD 0 = 2
    rw [getElem?_uniform 2 (hcell k), Option.getD_some]
  have hahead : straddlingStore.ahead = [2, 2, 2] := by simp only [ahead, hbyte]
  obtain ⟨i, hshown, hstep, -, -⟩ := step_as_shown straddlingStore rfl
  rw [hahead] at hshown
  obtain rfl : i = .store 0x0202 := Option.some.inj (hshown.symm.trans rfl)
  obtain ⟨after, hafter, heffect⟩ := hstep {
    bytes := fun k _ => Nat.lt_of_lt_of_eq (hcell k) (size_uniform 2).symm
    operand := by
      rintro address (h | h)
      · cases h
      · obtain rfl := Instruction.store.inj h
        exact Nat.lt_of_lt_of_eq (by decide) (size_uniform 2).symm
    known := fun byte => Instruction.noConfusion }
  refine ⟨rfl, after, hafter, heffect.pc, heffect.stored _ rfl, ?_⟩
  rw [heffect.kept 1 (by rintro _ ⟨⟩; decide)]
  exact getElem?_uniform 2 (by decide)

end VirtualPC.Core
