/-
VirtualPC/Proofs/Core/Faults.lean

What a fault says, and what it leaves behind.  A step can fault in three ways, told apart by
what it has fetched:

    a byte that is no opcode             that byte
    RAM ends inside the instruction      the bytes in front of the end
    a load or a store outside RAM        the three bytes of the instruction

`FaultsAfter core fetched cause` says that a step of `core` faults in one of them, and that is
all that a failing step can do: the program counter has passed the fetched bytes and nothing
else has changed (`step_eq_error_iff`).  A run faults exactly where steps that each carry out
an instruction lead to such a step within the budget (`run_eq_fault_iff`).

Main result: the report of a run that faults is true of the core that the failing step started
from, and all that is left of that step is its fetch (`run_fault_truthful`).
-/
import VirtualPC.Proofs.Core.Confinement
import VirtualPC.Proofs.Core.Record

namespace VirtualPC.Core

open Instruction

variable {core after last : Core} {i : Instruction} {cause : Fault} {fetched budget k : Nat}

/-! ### Steps that fault -/

/-- `FaultsAfter core fetched cause`: a step of `core` has fetched so many bytes and then
faults, for this cause. -/
inductive FaultsAfter (core : Core) : (fetched : Nat) → Fault → Prop
  /-- The first byte is no opcode. -/
  | unassigned {opcode : UInt8} :
      core.ram.cells[core.cpu.pc.toNat]? = some opcode → Opcode.ofByte? opcode = none →
      FaultsAfter core 1 (.illegalOpcode opcode core.cpu.pc)
  /-- Some bytes of the instruction are there, and the next one is outside RAM. -/
  | cut {bytes : List UInt8} :
      Holds core.ram core.cpu.pc bytes → Incomplete bytes →
      core.ram.size ≤ (core.cpu.pc.toNat + bytes.length) % guestSpace →
      FaultsAfter core bytes.length (.memory core.cpu.pc
        (.addressOutOfRange ((core.cpu.pc.toNat + bytes.length) % guestSpace) core.ram.size))
  /-- The instruction is there, and the address it loads from or stores to is outside RAM. -/
  | operand {i : Instruction} {address : UInt16} :
      Holds core.ram core.cpu.pc i.encode → i = .load address ∨ i = .store address →
      core.ram.size ≤ address.toNat →
      FaultsAfter core 3 (.memory core.cpu.pc
        (.addressOutOfRange address.toNat core.ram.size))

namespace FaultsAfter

/-- A fault names the instruction it happened in. -/
theorem pc_eq (h : FaultsAfter core fetched cause) : cause.pc = core.cpu.pc := by
  cases h <;> rfl

/-- No instruction has more than three bytes. -/
theorem fetched_le (h : FaultsAfter core fetched cause) : fetched ≤ 3 := by
  cases h with
  | unassigned => exact Nat.succ_le_succ (Nat.zero_le 2)
  | cut hholds hbytes hsize => exact Nat.le_of_lt hbytes.length_lt
  | operand => exact Nat.le_refl 3

/-- An illegal opcode is the byte at the program counter, and unassigned. -/
theorem illegalOpcode {opcode : UInt8} {pc : UInt16}
    (h : FaultsAfter core fetched (.illegalOpcode opcode pc)) :
    core.ram.cells[pc.toNat]? = some opcode ∧ Opcode.ofByte? opcode = none := by
  cases h with
  | unassigned hopcode hnone => exact ⟨hopcode, hnone⟩

/-- A memory fault is about a guest address outside RAM. -/
theorem memory {pc : UInt16} {failure : MemoryError}
    (h : FaultsAfter core fetched (.memory pc failure)) :
    ∃ address, failure = .addressOutOfRange address core.ram.size ∧
      core.ram.size ≤ address ∧ address < guestSpace := by
  cases h with
  | cut hholds hbytes hsize => exact ⟨_, rfl, hsize, Nat.mod_lt _ (by decide)⟩
  | @operand i address hholds hi hsize => exact ⟨_, rfl, hsize, address.toNat_lt⟩

/-- A step that can fault does. -/
theorem step (hrun : core.cpu.halted = false) (h : FaultsAfter core fetched cause) :
    Core.step core = .error cause (core.advance fetched) := by
  cases h with
  | unassigned hopcode hnone => exact step_of_unassigned hrun hnone hopcode
  | @cut bytes hholds hbytes hsize =>
    have hpc : (core.advance bytes.length).cpu.pc.toNat
        = (core.cpu.pc.toNat + bytes.length) % guestSpace := toNat_add_ofNat _ _
    rw [← hpc] at hsize ⊢
    exact step_of_fetch_error hrun
      (fetchInstruction_eq_error_iff.2 ⟨bytes, hbytes, hholds, rfl, hsize, rfl⟩)
  | @operand i address hholds hi hsize =>
    have hfetch : fetchInstruction core = .ok i (core.advance 3) := by
      obtain rfl | rfl := hi
      · exact fetchInstruction_eq_ok_iff.2 ⟨trivial, hholds, rfl⟩
      · exact fetchInstruction_eq_ok_iff.2 ⟨trivial, hholds, rfl⟩
    rw [step_of_fetch hrun hfetch]
    exact execute_eq_error_iff.2 ⟨rfl, .inr ⟨address, hi, hsize, rfl⟩⟩

end FaultsAfter

/-- What cannot be carried out faults at its address, after its fetch. -/
theorem faultsAfter_of_execute (hfetch : fetchInstruction core = .ok i after)
    (h : execute core.cpu.pc i after = .error cause last) :
    ∃ fetched, FaultsAfter core fetched cause ∧ last = core.advance fetched := by
  obtain ⟨hcanonical, hholds, rfl⟩ := fetchInstruction_eq_ok_iff.1 hfetch
  obtain ⟨rfl, ⟨byte, rfl, rfl⟩ | ⟨address, hi, hsize, rfl⟩⟩ := execute_eq_error_iff.1 h
  · exact ⟨1, .unassigned hholds.head hcanonical, rfl⟩
  · have hwidth : i.width = 3 := by
      obtain rfl | rfl := hi <;> rfl
    exact ⟨3, .operand hholds hi hsize, by rw [hwidth]⟩

/-- **A step fails exactly where it can fault**, and leaves its fetch behind. -/
theorem step_eq_error_iff : step core = .error cause after ↔
    core.cpu.halted = false ∧ ∃ fetched, FaultsAfter core fetched cause ∧
      after = core.advance fetched := by
  constructor
  · intro h
    rcases hhalt : core.cpu.halted with _ | _
    · refine ⟨rfl, ?_⟩
      rcases hfetch : fetchInstruction core with ⟨i, mid⟩ | ⟨failure, mid⟩
      · rw [step_of_fetch hhalt hfetch] at h
        exact faultsAfter_of_execute hfetch h
      · rw [step_of_fetch_error hhalt hfetch] at h
        cases h
        obtain ⟨bytes, hbytes, hholds, rfl, hsize, rfl⟩ := fetchInstruction_eq_error_iff.1 hfetch
        rw [advance_pc, toNat_add_ofNat] at hsize ⊢
        exact ⟨bytes.length, .cut hholds hbytes hsize, rfl⟩
    · rw [step_of_halted hhalt] at h
      cases h
  · rintro ⟨hrun, fetched, hfault, rfl⟩
    exact hfault.step hrun

/-! ### Runs that fault -/

/-- A run whose whole budget is executed has not faulted. -/
theorem lt_budget_of_run_fault (h : run budget core = (.fault k cause, last))
    {executed : List Instruction}
    (hcalls : (calls k core).1 = executed.map fun i => .ok (.executed i)) : k < budget := by
  have hle : (run budget core).1.executed ≤ budget := executed_run_le budget core
  rw [h] at hle
  apply Nat.lt_of_le_of_ne (show k ≤ budget from hle)
  rintro rfl
  have hall := run_add_of_calls 0 (Prod.ext hcalls rfl)
  rw [Nat.add_zero, h, run_zero] at hall
  rcases hhalt : (calls k core).2.cpu.halted with _ | _ <;> simp [hhalt, RunExit.after] at hall

/-- **A run faults exactly where** steps that each carry out an instruction lead to a failing
one within the budget. -/
theorem run_eq_fault_iff : run budget core = (.fault k cause, last) ↔
    k < budget ∧
    (∃ executed : List Instruction,
      (calls k core).1 = executed.map fun i => .ok (.executed i)) ∧
    step (calls k core).2 = .error cause last := by
  constructor
  · intro h
    have hlength : (trace budget core).length = k := by
      rw [length_trace, h]
      rfl
    have hcalls := calls_trace budget core
    rw [hlength] at hcalls
    exact ⟨lt_budget_of_run_fault h hcalls, ⟨_, hcalls⟩, step_of_run_fault h⟩
  · rintro ⟨hlt, ⟨executed, hcalls⟩, hstep⟩
    obtain ⟨rest, rfl⟩ := Nat.exists_eq_add_of_lt hlt
    have hrun := (step_eq_error_iff.1 hstep).1
    rw [Nat.add_assoc, run_add_of_calls (rest + 1) (Prod.ext hcalls rfl),
      run_succ_of_error rest hrun hstep]
    rfl

/-- **A fault report is true, and a fault leaves only a fetch behind.**  Take any run that ends
with a fault, and the core `mid` that the instructions it has executed lead to.  The report
names the instruction at which `mid` stood; an illegal opcode is the unassigned byte there, and
a memory fault is about an address from the end of RAM on that the guest can form: that of the
first missing byte of the instruction, or the operand of a load or a store that was fetched
whole.  The program counter has passed the bytes fetched, and RAM, accumulator and halt flag
are those of `mid`. -/
theorem run_fault_truthful (core : Core) (budget k : Nat) (cause : Fault) (last : Core)
    (h : run budget core = (.fault k cause, last)) :
    let mid := (calls k core).2
    (∃ executed : List Instruction,
      (calls k core).1 = executed.map fun i => .ok (.executed i)) ∧
    cause.pc = mid.cpu.pc ∧
    (∀ opcode pc, cause = .illegalOpcode opcode pc →
      mid.ram.cells[pc.toNat]? = some opcode ∧ Opcode.ofByte? opcode = none) ∧
    (∀ pc failure, cause = .memory pc failure →
      ∃ address, failure = .addressOutOfRange address core.ram.size ∧
        core.ram.size ≤ address ∧ address ≤ 0xFFFF) ∧
    last.ram = mid.ram ∧ last.cpu.acc = mid.cpu.acc ∧ last.cpu.halted = mid.cpu.halted ∧
    ∃ fetched, FaultsAfter mid fetched cause ∧ fetched ≤ 3 ∧
      last.cpu.pc.toNat = (mid.cpu.pc.toNat + fetched) % guestSpace := by
  intro mid
  obtain ⟨-, hexecuted, hstep⟩ := run_eq_fault_iff.1 h
  obtain ⟨-, fetched, hfault, rfl⟩ := step_eq_error_iff.1 hstep
  refine ⟨hexecuted, hfault.pc_eq, ?_, ?_, rfl, rfl, rfl, fetched, hfault, hfault.fetched_le,
    toNat_add_ofNat _ _⟩
  · rintro opcode pc rfl
    exact hfault.illegalOpcode
  · rintro pc failure rfl
    obtain ⟨address, rfl, hsize, hlt⟩ := hfault.memory
    rw [size_calls] at hsize ⊢
    exact ⟨address, rfl, hsize, Nat.le_of_lt_succ hlt⟩

/-- A program that ends inside its second instruction. -/
def cutShort : Ram := ⟨#[0x04, 0x01, 0x02, 0x80], by decide⟩

theorem cutShort_faults : ∃ last,
    run 9 ⟨Cpu.boot 0, cutShort⟩ = (.fault 1 (.memory 2 (.addressOutOfRange 4 4)), last) ∧
    last.cpu.acc = 1 ∧ last.cpu.pc = 4 ∧
    ∃ fetched, FaultsAfter (calls 1 ⟨Cpu.boot 0, cutShort⟩).2 fetched
      (.memory 2 (.addressOutOfRange 4 4)) ∧ (2 + fetched) % guestSpace = 4 := by
  have hrun : run 9 ⟨Cpu.boot 0, cutShort⟩
      = (.fault 1 (.memory 2 (.addressOutOfRange 4 4)), ⟨⟨4, 1, false⟩, cutShort⟩) := rfl
  obtain ⟨-, hpc, -, -, -, -, -, fetched, hfault, -, hlast⟩ :=
    run_fault_truthful ⟨Cpu.boot 0, cutShort⟩ 9 1 _ _ hrun
  rw [← hpc] at hlast
  exact ⟨_, hrun, rfl, rfl, fetched, hfault, hlast.symm⟩

end VirtualPC.Core
