/-
VirtualPC/Proofs/Core/StoreLog.lean

What a run does to RAM is done by its stores.  Each instruction of the trace is carried out in
some core, and if it is a store it writes the accumulator of that core; these writes, in order,
are the store log of the run:

    storeLog budget core

A step that executes an instruction does the write of that instruction to RAM and nothing else
(`carryOut_of_step`), whatever the bytes written mean later, when they may be fetched; a step
that fails writes nothing, not even if it fails at a store.

Main result: the RAM that a run leaves, however it ends, is the RAM it found with the log done
(`ram_run_eq_storeLog`).
-/
import VirtualPC.Proofs.Core.Iteration
import VirtualPC.Proofs.Memory.History

namespace VirtualPC.Core

variable {core after : Core} {i : Instruction} {cause : Fault} {w : Write} {budget k : Nat}

/-! ### The write of an instruction -/

/-- The write that an instruction does when it is carried out in a core. -/
def writeOf? (core : Core) : Instruction → Option Write
  | .store address => some (.byte address.toNat core.cpu.acc)
  | .nop | .loadImmediate _ | .load _ | .addImmediate _ | .subImmediate _ | .jump _
  | .jumpIfZero _ | .halt | .unknown _ => none

theorem writeOf?_eq_some_iff :
    writeOf? core i = some w ↔
      ∃ address, i = .store address ∧ w = .byte address.toNat core.cpu.acc := by
  cases i <;> simp [writeOf?, eq_comm]

/-- A step that executes an instruction does its write, and leaves RAM alone if it has none. -/
theorem carryOut_of_step (hrun : core.cpu.halted = false)
    (h : step core = .ok (.executed i) after) :
    match writeOf? core i with
    | some w => core.ram.carryOut w = .ok after.ram
    | none => after.ram = core.ram := by
  obtain ⟨j, -, hexecute⟩ := execute_of_step_ok hrun h
  cases j with
  | store address =>
    rcases hwrite : core.ram.write address.toNat core.cpu.acc with failure | ram
    · simp [execute, hwrite] at hexecute
    · simp only [execute, advance_ram, advance_acc, hwrite] at hexecute
      cases hexecute
      exact hwrite
  | load address =>
    rcases hread : core.ram.read address.toNat with failure | byte
    · simp [execute, hread] at hexecute
    · simp only [execute, advance_ram, hread] at hexecute
      cases hexecute
      rfl
  | jumpIfZero target =>
    by_cases hacc : core.cpu.acc = 0
    · simp only [execute, advance_acc, hacc, ↓reduceIte] at hexecute
      cases hexecute
      rfl
    · simp only [execute, advance_acc, hacc, ↓reduceIte] at hexecute
      cases hexecute
      rfl
  | unknown byte => cases hexecute
  | nop | loadImmediate | addImmediate | subImmediate | jump | halt =>
    cases hexecute
    rfl

/-! ### The store log -/

/-- The writes of a run, in the order of execution: those of the instructions of its trace, each
in the core that the calls before it have left. -/
def storeLog (budget : Nat) (core : Core) : List Write :=
  (trace budget core).zipIdx.flatMap fun (i, n) => (writeOf? (calls n core).2 i).toList

theorem storeLog_of_trace_nil (h : trace budget core = []) : storeLog budget core = [] := by
  rw [storeLog, h]
  rfl

/-- The log of a run starts with the write of its first instruction, if it has one. -/
theorem storeLog_succ_of_executed (budget : Nat) (h : step core = .ok (.executed i) after) :
    storeLog (budget + 1) core = (writeOf? core i).toList ++ storeLog budget after := by
  -- one call later, a core is that of the rest of the run
  have hcalls : ∀ n, (calls (n + 1) core).2 = (calls n after).2 := by
    intro n
    rw [calls, call_of_ok h]
  rw [storeLog, trace_succ_of_executed budget h, List.zipIdx_cons, List.flatMap_cons,
    List.zipIdx_succ, List.flatMap_map]
  simp only [hcalls]
  rfl

/-- A write of the log is that of a store in the trace, and was done to RAM. -/
theorem exists_store_of_mem_storeLog (h : w ∈ storeLog budget core) :
    ∃ address : UInt16, ∃ value, w = .byte address.toNat value ∧ address.toNat < core.ram.size ∧
      .store address ∈ trace budget core := by
  obtain ⟨⟨i, n⟩, hmem, hw⟩ := List.mem_flatMap.1 h
  have hwrite : writeOf? (calls n core).2 i = some w := Option.mem_toList.1 hw
  have hi : (trace budget core)[n]? = some i := List.mk_mem_zipIdx_iff_getElem?.1 hmem
  obtain ⟨hrun, hstep⟩ := step_calls hi
  have hdone := carryOut_of_step hrun hstep
  rw [hwrite] at hdone
  obtain ⟨address, rfl, rfl⟩ := writeOf?_eq_some_iff.1 hwrite
  refine ⟨address, _, rfl, ?_, List.mem_of_getElem? hi⟩
  rw [← size_calls n core]
  exact Ram.lt_size_of_write hdone

theorem fits_of_mem_storeLog (h : w ∈ storeLog budget core) : w.Fits core.ram.size := by
  obtain ⟨address, value, rfl, hlt, -⟩ := exists_store_of_mem_storeLog h
  exact hlt

/-- A run without a store logs nothing. -/
theorem storeLog_eq_nil (h : ∀ address, .store address ∉ trace budget core) :
    storeLog budget core = [] := by
  refine List.eq_nil_iff_forall_not_mem.2 fun w hw => ?_
  obtain ⟨address, -, -, -, hmem⟩ := exists_store_of_mem_storeLog hw
  exact h address hmem

/-- The log has nothing for a cell that no write of it is to. -/
theorem findSome?_storeLog_eq_none (h : ∀ value, .byte k value ∉ storeLog budget core) :
    (storeLog budget core).reverse.findSome? (Write.byteAt? · k) = none := by
  rw [List.findSome?_eq_none_iff]
  intro w hw
  rw [List.mem_reverse] at hw
  obtain ⟨address, value, rfl, -⟩ := exists_store_of_mem_storeLog hw
  have hne : k ≠ address.toNat := by
    rintro rfl
    exact h value hw
  rw [Write.byteAt?_byte, if_neg hne]

/-! ### Runs -/

/-- **A run does its store log to RAM**, every write of it, and nothing else. -/
theorem putAll_storeLog (budget : Nat) (core : Core) :
    core.ram.putAll (storeLog budget core)
      = ((storeLog budget core).map fun _ => .ok (), (run budget core).2.ram) := by
  induction budget generalizing core with
  | zero => rfl
  | succ budget ih =>
    rcases hhalt : core.cpu.halted with _ | _
    · rcases hstep : step core with ⟨outcome, next⟩ | ⟨cause, next⟩
      · obtain ⟨i, rfl⟩ := executed_of_step_ok hhalt hstep
        have hdone := carryOut_of_step hhalt hstep
        rw [run_succ_of_ok _ hhalt hstep, storeLog_succ_of_executed _ hstep]
        rcases hwrite : writeOf? core i with _ | w
        · rw [hwrite] at hdone
          rw [← hdone]
          exact ih next
        · rw [hwrite] at hdone
          have hput : core.ram.put w = (.ok (), next.ram) := by
            rw [Ram.put_eq, hdone]
          show core.ram.putAll (w :: storeLog budget next) = _
          rw [Ram.putAll, hput, ih next]
          rfl
      -- a failing step leaves RAM as it was
      · obtain ⟨n, rfl⟩ := step_error hstep
        rw [run_succ_of_error _ hhalt hstep,
          storeLog_of_trace_nil (trace_succ_of_error budget hstep)]
        rfl
    · rw [run_of_halted _ hhalt, storeLog_of_trace_nil (trace_of_halted _ hhalt)]
      rfl

/-- A cell holds after a run what the last store to it has left there, or what it held. -/
theorem getElem?_ram_run (budget : Nat) (core : Core) (k : Nat) :
    (run budget core).2.ram.cells[k]?
      = ((storeLog budget core).reverse.findSome? (Write.byteAt? · k)).or
        core.ram.cells[k]? := by
  have hfits : ∀ w ∈ storeLog budget core, w.Fits core.ram.size :=
    fun w hw => fits_of_mem_storeLog hw
  have hcells := Ram.getElem?_putAll hfits k
  rwa [putAll_storeLog] at hcells

/-- **RAM after a run is RAM before it with the store log done.**  Take any core and budget, and
the instructions that the run has executed, however it has ended.  Doing the writes of the
stores among them, in order and each with the accumulator of its moment, to the RAM before the
run leaves the RAM after it.  None of them is refused, and each is to a cell that RAM has and
the guest can address.  So a cell holds what the last of them has written there, and every
other cell is unchanged, as are the size of RAM and, where no store was executed, all of it. -/
theorem ram_run_eq_storeLog (core : Core) (budget : Nat) :
    let log := storeLog budget core
    let executed := trace budget core
    let last := (run budget core).2
    (calls (run budget core).1.executed core).1 = executed.map (fun i => .ok (.executed i)) ∧
    core.ram.putAll log = (log.map fun _ => .ok (), last.ram) ∧
    (∀ w ∈ log, ∃ address value, w = .byte address value ∧
      address < min core.ram.size guestSpace) ∧
    (∀ k, last.ram.cells[k]?
      = (log.reverse.findSome? (Write.byteAt? · k)).or core.ram.cells[k]?) ∧
    (∀ k, (∀ value, .byte k value ∉ log) → last.ram.cells[k]? = core.ram.cells[k]?) ∧
    last.ram.size = core.ram.size ∧
    ((∀ address, .store address ∉ executed) → last.ram = core.ram) := by
  intro log executed last
  refine ⟨?_, putAll_storeLog budget core, ?_, getElem?_ram_run budget core, ?_,
    size_run budget core, ?_⟩
  · rw [← length_trace]
    exact calls_trace budget core
  · intro w hw
    obtain ⟨address, value, rfl, hlt, -⟩ := exists_store_of_mem_storeLog hw
    exact ⟨_, value, rfl, Nat.lt_min.2 ⟨hlt, address.toNat_lt⟩⟩
  · intro k hk
    rw [getElem?_ram_run, findSome?_storeLog_eq_none hk, Option.none_or]
  · intro hnone
    have hput := putAll_storeLog budget core
    rw [storeLog_eq_nil hnone] at hput
    exact (Prod.mk.inj hput).2.symm

end VirtualPC.Core
