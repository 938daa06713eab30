/-
VirtualPC/Proofs/Core/Record.lean

What a run does, written down.  `trace` has the instructions that a run carries out, and
`accesses` its reads and stores, both in order.  They observe the run of `Core.step`; no second
processor runs beside it.  Only the reads of a fetch need a record kept while the instruction
is being decoded: decoding takes any fetch, so here it takes one that notes the program counter
of each byte it reads (`Recorder.fetch`).

An access that RAM refuses is not noted: there is no cell that was read or stored to.  The
bytes that a failing step has fetched are noted.

Main results: the trace is what the calls of `step` answer, as many as the run executes
(`calls_trace`, `length_trace`), and a run changes only cells it is noted to store to
(`getElem?_run`).
-/
import Mathlib.Data.Set.Insert
import VirtualPC.Proofs.Core.Run
import VirtualPC.Proofs.Instruction.Decoding

namespace VirtualPC.Core

open Instruction

variable {core after : Core} {i : Instruction} {outcome : Outcome} {cause : Fault}
  {bytes : List UInt8} {k : Nat}

/-! ### Traces -/

/-- The instructions that a run carries out. -/
def trace : (budget : Nat) → Core → List Instruction
  | 0, _ => []
  | budget + 1, core =>
    match step core with
    | .ok (.executed i) after => i :: trace budget after
    | .ok .idle _ | .error _ _ => []

/-- A running processor that takes a step has carried out an instruction. -/
theorem executed_of_step_ok (hrun : core.cpu.halted = false)
    (h : step core = .ok outcome after) : ∃ i, outcome = .executed i := by
  obtain ⟨i, -, hexecute⟩ := execute_of_step_ok hrun h
  obtain ⟨done, hok, -⟩ | ⟨cause, -, herror⟩ :=
    execute_cases core.cpu.pc i (core.advance i.width)
  · rw [hok] at hexecute
    cases hexecute
    exact ⟨i, rfl⟩
  · rw [herror] at hexecute
    cases hexecute

theorem trace_of_halted (budget : Nat) (h : core.cpu.halted = true) : trace budget core = [] := by
  cases budget with
  | zero => rfl
  | succ budget => simp only [trace, step_of_halted h]

theorem trace_succ_of_executed (budget : Nat) (h : step core = .ok (.executed i) after) :
    trace (budget + 1) core = i :: trace budget after := by
  simp only [trace, h]

theorem trace_succ_of_error (budget : Nat) (h : step core = .error cause after) :
    trace (budget + 1) core = [] := by
  simp only [trace, h]

/-- A run carries out as many instructions as it says. -/
theorem length_trace (budget : Nat) (core : Core) :
    (trace budget core).length = (run budget core).1.executed := by
  induction budget generalizing core with
  | zero =>
    rw [run_zero]
    rcases core.cpu.halted with _ | _ <;> rfl
  | succ budget ih =>
    rcases hhalt : core.cpu.halted with _ | _
    · rcases hstep : step core with ⟨outcome, next⟩ | ⟨cause, next⟩
      · obtain ⟨i, rfl⟩ := executed_of_step_ok hhalt hstep
        rw [run_succ_of_ok _ hhalt hstep, trace_succ_of_executed _ hstep, List.length_cons, ih next,
          RunExit.executed_after, Nat.add_comm]
      · rw [run_succ_of_error _ hhalt hstep, trace_succ_of_error _ hstep]
        rfl
    · rw [run_of_halted _ hhalt, trace_of_halted _ hhalt]
      rfl

/-- Each call of `step` answers with the next instruction of the trace. -/
theorem calls_trace (budget : Nat) (core : Core) :
    (calls (trace budget core).length core).1
      = (trace budget core).map fun i => .ok (.executed i) := by
  induction budget generalizing core with
  | zero => rfl
  | succ budget ih =>
    rcases hhalt : core.cpu.halted with _ | _
    · rcases hstep : step core with ⟨outcome, next⟩ | ⟨cause, next⟩
      · obtain ⟨i, rfl⟩ := executed_of_step_ok hhalt hstep
        rw [trace_succ_of_executed _ hstep, List.length_cons, List.map_cons, calls,
          call_of_ok hstep, ← ih next]
      · rw [trace_succ_of_error _ hstep]
        rfl
    · rw [trace_of_halted _ hhalt]
      rfl

/-! ### Accesses -/

/-- An access to RAM. -/
inductive Access where
  | read (address : Nat)
  | store (address : Nat)
deriving DecidableEq, Repr

/-- A core with the accesses that have been noted. -/
structure Recorder where
  core : Core
  accesses : List Access

/-- Fetches a byte and notes the read. -/
def Recorder.fetch : EStateM MemoryError Recorder UInt8 := fun r =>
  match Core.fetch r.core with
  | .ok byte core => .ok byte ⟨core, r.accesses ++ [.read r.core.cpu.pc.toNat]⟩
  | .error cause core => .error cause { r with core := core }

theorem Recorder.fetch_of_error {noted : List Access} {failure : MemoryError}
    (h : Core.fetch core = .error failure after) :
    Recorder.fetch ⟨core, noted⟩ = .error failure ⟨after, noted⟩ := by
  simp only [Recorder.fetch, h]

/-- The accesses of carrying out a fetched instruction. -/
def executeAccesses (i : Instruction) (ram : Ram) : List Access :=
  match i with
  | .load address => if address.toNat < ram.size then [.read address.toNat] else []
  | .store address => if address.toNat < ram.size then [.store address.toNat] else []
  | _ => []

/-- The accesses of an instruction depend on the size of RAM and on nothing else in it. -/
theorem executeAccesses_congr {r₁ r₂ : Ram} (hsize : r₂.size = r₁.size) (i : Instruction) :
    executeAccesses i r₂ = executeAccesses i r₁ := by
  cases i <;> simp only [executeAccesses, hsize]

/-- The accesses of a step: those of the fetch, up to the one that fails, and then those of
the instruction. -/
def stepAccesses (core : Core) : List Access :=
  if core.cpu.halted then []
  else
    match decodeFrom Recorder.fetch ⟨core, []⟩ with
    | .ok i r => r.accesses ++ executeAccesses i r.core.ram
    | .error _ r => r.accesses

/-- The accesses of a run. -/
def accesses : (budget : Nat) → Core → List Access
  | 0, _ => []
  | budget + 1, core =>
    stepAccesses core ++
      match step core with
      | .ok _ after => accesses budget after
      | .error _ _ => []

/-- The addresses stored to. -/
def stored (accesses : List Access) : Set Nat := {k | .store k ∈ accesses}

@[simp] theorem stored_nil : stored [] = ∅ := by simp [stored]

@[simp] theorem stored_read_cons (address : Nat) (rest : List Access) :
    stored (.read address :: rest) = stored rest := by
  simp [stored]

@[simp] theorem stored_store_cons (address : Nat) (rest : List Access) :
    stored (.store address :: rest) = insert address (stored rest) :=
  Set.ext fun k => by simp [stored]

theorem stored_append (first second : List Access) :
    stored (first ++ second) = stored first ∪ stored second :=
  Set.ext fun _ => List.mem_append

/-! ### The accesses of a step -/

theorem stepAccesses_of_halted (h : core.cpu.halted = true) : stepAccesses core = [] := by
  rw [stepAccesses, if_pos h]

/-- The reads of `count` bytes from a guest address on, going round at 64 KiB. -/
def readsFrom (pc : UInt16) : (count : Nat) → List Access
  | 0 => []
  | count + 1 => .read pc.toNat :: readsFrom (pc + 1) count

@[simp] theorem stored_readsFrom (pc : UInt16) (count : Nat) : stored (readsFrom pc count) = ∅ := by
  induction count generalizing pc with
  | zero => exact stored_nil
  | succ count ih => rw [readsFrom, stored_read_cons, ih]

/-- Noting the reads makes no difference to what is supplied. -/
theorem supplies_recorder (h : Supplies fetch core bytes after) (noted : List Access) :
    Supplies Recorder.fetch ⟨core, noted⟩ bytes
      ⟨after, noted ++ readsFrom core.cpu.pc bytes.length⟩ := by
  induction h generalizing noted with
  | nil core =>
    rw [List.length_nil, readsFrom, List.append_nil]
    exact .nil _
  | @cons core mid after byte bytes hbyte hrest ih =>
    obtain ⟨-, hmid⟩ := holds_of_supplies (.cons hbyte (.nil mid))
    have hnext := ih (noted ++ [.read core.cpu.pc.toNat])
    rw [List.append_assoc, show mid.cpu.pc = core.cpu.pc + 1 by rw [hmid]; rfl] at hnext
    refine .cons ?_ hnext
    simp only [Recorder.fetch, hbyte]

/-- A step that fetches an instruction reads the bytes of its encoding. -/
theorem stepAccesses_of_fetch (hrun : core.cpu.halted = false)
    (hfetch : fetchInstruction core = .ok i after) :
    stepAccesses core = readsFrom core.cpu.pc i.width ++ executeAccesses i core.ram := by
  obtain ⟨hcanonical, hholds, -⟩ := fetchInstruction_eq_ok_iff.1 hfetch
  have hsupply := supplies_recorder (supplies_of_holds hholds) []
  have hrecord := decodeFrom_eq_ok_iff.2 ⟨hcanonical, hsupply⟩
  rw [stepAccesses, hrun, if_neg Bool.false_ne_true, hrecord, length_encode]
  rfl

/-- A step that finds RAM to end before an instruction does reads the bytes that are there. -/
theorem stepAccesses_of_incomplete (hrun : core.cpu.halted = false) (hbytes : Incomplete bytes)
    (hholds : Holds core.ram core.cpu.pc bytes)
    (hsize : core.ram.size ≤ (core.advance bytes.length).cpu.pc.toNat) :
    stepAccesses core = readsFrom core.cpu.pc bytes.length := by
  have hsupply := supplies_recorder (supplies_of_holds hholds) []
  have hfail := @fetch_of_size_le (core.advance bytes.length) hsize
  have hrecord := decodeFrom_eq_error_iff.2
    ⟨bytes, _, hbytes, hsupply, Recorder.fetch_of_error hfail⟩
  rw [stepAccesses, hrun, if_neg Bool.false_ne_true, hrecord]
  rfl

/-! ### The accesses of a run -/

theorem accesses_of_halted (budget : Nat) (h : core.cpu.halted = true) :
    accesses budget core = [] := by
  induction budget with
  | zero => rfl
  | succ budget ih => simp only [accesses, step_of_halted h, stepAccesses_of_halted h, ih,
      List.append_nil]

theorem accesses_succ_of_ok (budget : Nat) (h : step core = .ok outcome after) :
    accesses (budget + 1) core = stepAccesses core ++ accesses budget after := by
  simp only [accesses, h]

theorem accesses_succ_of_error (budget : Nat) (h : step core = .error cause after) :
    accesses (budget + 1) core = stepAccesses core := by
  simp only [accesses, h, List.append_nil]

/-! ### Cells that are not stored to -/

/-- Carrying out an instruction changes no cell but the one it is noted to store to. -/
theorem getElem?_of_execute {pc : UInt16} (h : execute pc i core = .ok outcome after)
    (hk : k ∉ stored (executeAccesses i core.ram)) :
    after.ram.cells[k]? = core.ram.cells[k]? := by
  obtain ⟨done, hok, hram | ⟨address, rfl, hwrite⟩⟩ | ⟨cause, -, herror⟩ :=
    execute_cases pc i core
  · rw [hok] at h
    cases h
    rw [hram]
  · rw [hok] at h
    cases h
    rw [executeAccesses, if_pos (Ram.lt_size_of_write hwrite)] at hk
    have hne : k ≠ address.toNat := by
      rintro rfl
      exact hk (List.mem_singleton_self _)
    rw [Ram.getElem?_write hwrite, if_neg hne]
  · rw [herror] at h
    cases h

/-- A call of `step` changes no cell but the one it is noted to store to. -/
theorem getElem?_call (hk : k ∉ stored (stepAccesses core)) :
    core.call.2.ram.cells[k]? = core.ram.cells[k]? := by
  rcases hstep : step core with ⟨outcome, after⟩ | ⟨cause, after⟩
  · rw [call_of_ok hstep]
    rcases hhalt : core.cpu.halted with _ | _
    · obtain ⟨i, hfetch, hexecute⟩ := execute_of_step_ok hhalt hstep
      rw [stepAccesses_of_fetch hhalt hfetch, stored_append, Set.mem_union, not_or] at hk
      rw [getElem?_of_execute hexecute hk.2, advance_ram]
    · rw [step_of_halted hhalt] at hstep
      cases hstep
      rfl
  · rw [call_of_error hstep]
    obtain ⟨n, rfl⟩ := step_error hstep
    rfl

/-- **A run changes only cells it is noted to store to.** -/
theorem getElem?_run {budget : Nat} (hk : k ∉ stored (accesses budget core)) :
    (run budget core).2.ram.cells[k]? = core.ram.cells[k]? := by
  induction budget generalizing core with
  | zero => rfl
  | succ budget ih =>
    rcases hhalt : core.cpu.halted with _ | _
    · rcases hstep : step core with ⟨outcome, next⟩ | ⟨cause, next⟩
      · rw [accesses_succ_of_ok _ hstep, stored_append, Set.mem_union, not_or] at hk
        rw [run_succ_of_ok _ hhalt hstep, ih hk.2, ← getElem?_call hk.1, call_of_ok hstep]
      · rw [accesses_succ_of_error _ hstep] at hk
        rw [run_succ_of_error _ hhalt hstep, ← getElem?_call hk, call_of_error hstep]
    · rw [run_of_halted _ hhalt]

end VirtualPC.Core
