/-
VirtualPC/Proofs/Core/Step.lean

What one step does, said once.  A running processor carries out the instruction that stands
encoded at its program counter (`step_of_holds`), and these are the ways a step ends
(`step_cases`): the processor was halted, it came to carrying out an instruction
(`execute_cases`, `execute_eq_error_iff`), or RAM ended before the instruction did.

A step that fails leaves the core as it was but for the program counter (`step_error`); one
that succeeds has written at most one cell of RAM (`ram_of_step_ok`).
-/
import VirtualPC.Proofs.Core.Fetch

namespace VirtualPC.Core

variable {core after : Core} {i : Instruction} {outcome : Outcome} {cause : Fault}

/-- A halted processor idles. -/
theorem step_of_halted (h : core.cpu.halted = true) : step core = .ok .idle core := by
  rw [step, if_pos h]

/-- A running processor carries out what it fetches. -/
theorem step_of_fetch (hrun : core.cpu.halted = false)
    (hfetch : fetchInstruction core = .ok i after) :
    step core = execute core.cpu.pc i after := by
  simp only [step, hrun, hfetch, Bool.false_eq_true, ↓reduceIte]

/-- A running processor that cannot fetch an instruction faults at its address. -/
theorem step_of_fetch_error {failure : MemoryError} (hrun : core.cpu.halted = false)
    (hfetch : fetchInstruction core = .error failure after) :
    step core = .error (.memory core.cpu.pc failure) after := by
  simp only [step, hrun, hfetch, Bool.false_eq_true, ↓reduceIte]

/-- Where RAM holds the encoding of an instruction, a running processor carries it out. -/
theorem step_of_holds {op : Opcode} (hrun : core.cpu.halted = false) (hop : i.opcode? = some op)
    (h : Holds core.ram core.cpu.pc i.encode) :
    step core = execute core.cpu.pc i (core.advance i.width) :=
  step_of_fetch hrun (fetchInstruction_of_holds hop h)

/-- A running processor faults at an unassigned byte. -/
theorem step_of_unassigned {byte : UInt8} (hrun : core.cpu.halted = false)
    (hop : Opcode.ofByte? byte = none) (h : core.ram.cells[core.cpu.pc.toNat]? = some byte) :
    step core = .error (.illegalOpcode byte core.cpu.pc) (core.advance 1) :=
  step_of_fetch hrun (fetchInstruction_of_unassigned hop h)

/-! ### Carrying out an instruction -/

/-- The two ways of carrying out an instruction.  It is reported, and has written the
accumulator to one cell of RAM or has left RAM alone; or it faults at its own address, and
nothing has changed. -/
theorem execute_cases (pc : UInt16) (i : Instruction) (core : Core) :
    (∃ after, execute pc i core = .ok (.executed i) after ∧
      (after.ram = core.ram ∨ ∃ address, i = .store address ∧
        core.ram.write address.toNat core.cpu.acc = .ok after.ram)) ∨
    ∃ cause : Fault, cause.pc = pc ∧ execute pc i core = .error cause core := by
  cases i with
  | store address =>
    rcases hwrite : core.ram.write address.toNat core.cpu.acc with failure | ram
    · exact .inr ⟨.memory pc failure, rfl, by simp only [execute, hwrite]⟩
    · exact .inl ⟨{ core with ram := ram }, by simp only [execute, hwrite],
        .inr ⟨address, rfl, hwrite⟩⟩
  | load address =>
    rcases hread : core.ram.read address.toNat with failure | byte
    · exact .inr ⟨.memory pc failure, rfl, by simp only [execute, hread]⟩
    · exact .inl ⟨{ core with cpu.acc := byte }, by simp only [execute, hread], .inl rfl⟩
  | jumpIfZero target =>
    by_cases hacc : core.cpu.acc = 0
    · exact .inl ⟨{ core with cpu.pc := target }, if_pos hacc, .inl rfl⟩
    · exact .inl ⟨core, if_neg hacc, .inl rfl⟩
  | unknown byte => exact .inr ⟨.illegalOpcode byte pc, rfl, rfl⟩
  | nop | loadImmediate | addImmediate | subImmediate | jump | halt =>
    exact .inl ⟨_, rfl, .inl rfl⟩

/-- **An instruction cannot be carried out exactly if** it is an unknown byte, or loads from or
stores to an address that is not in RAM; nothing changes then. -/
theorem execute_eq_error_iff {pc : UInt16} : execute pc i core = .error cause after ↔
    after = core ∧ ((∃ byte, i = .unknown byte ∧ cause = .illegalOpcode byte pc) ∨
      ∃ address, (i = .load address ∨ i = .store address) ∧ core.ram.size ≤ address.toNat ∧
        cause = .memory pc (.addressOutOfRange address.toNat core.ram.size)) := by
  cases i with
  | store address =>
    rcases Nat.lt_or_ge address.toNat core.ram.size with hlt | hge
    · obtain ⟨ram, hwrite⟩ := Ram.exists_write core.cpu.acc hlt
      simp [execute, hwrite, Nat.not_le.2 hlt]
    · simp [execute, Ram.write_of_size_le core.cpu.acc hge, hge, eq_comm, and_comm]
  | load address =>
    rcases Nat.lt_or_ge address.toNat core.ram.size with hlt | hge
    · obtain ⟨byte, hbyte⟩ := Ram.getElem?_isSome hlt
      simp [execute, Ram.read_eq_ok_iff.2 hbyte, Nat.not_le.2 hlt]
    · simp [execute, Ram.read_of_size_le hge, hge, eq_comm, and_comm]
  | jumpIfZero target => by_cases hacc : core.cpu.acc = 0 <;> simp [execute, hacc]
  | unknown byte => simp [execute, eq_comm, and_comm]
  | nop | loadImmediate | addImmediate | subImmediate | jump | halt => simp [execute]

/-! ### Steps -/

/-- **The ways a step ends.**  A halted processor idles.  A running one has fetched an
instruction that stands encoded at its program counter, which is carried out or faults, or
has found RAM to end before the instruction does. -/
theorem step_cases (core : Core) :
    (core.cpu.halted = true ∧ step core = .ok .idle core) ∨
    (core.cpu.halted = false ∧
      ((∃ i, Holds core.ram core.cpu.pc i.encode ∧
          step core = execute core.cpu.pc i (core.advance i.width)) ∨
        ∃ bytes cause, bytes.length < 3 ∧ Holds core.ram core.cpu.pc bytes ∧
          core.ram.size ≤ (core.advance bytes.length).cpu.pc.toNat ∧
          cause = .memory core.cpu.pc (.addressOutOfRange
            (core.advance bytes.length).cpu.pc.toNat core.ram.size) ∧
          step core = .error cause (core.advance bytes.length))) := by
  rcases hhalt : core.cpu.halted with _ | _
  -- the two ends of a fetch are those of `Fetch`, with the bytes read so far
  · refine .inr ⟨rfl, ?_⟩
    rcases hfetch : fetchInstruction core with ⟨i, mid⟩ | ⟨failure, mid⟩
    · obtain ⟨hholds, rfl⟩ := holds_of_fetchInstruction hfetch
      exact .inl ⟨i, hholds, step_of_fetch hhalt hfetch⟩
    · obtain ⟨bytes, hbytes, hholds, rfl, hsize, rfl⟩ := fetchInstruction_eq_error_iff.1 hfetch
      exact .inr ⟨bytes, _, hbytes.length_lt, hholds, hsize, rfl, step_of_fetch_error hhalt hfetch⟩
  · exact .inl ⟨rfl, step_of_halted hhalt⟩

/-- A step of a running processor that succeeds has carried out what it has fetched. -/
theorem execute_of_step_ok (hrun : core.cpu.halted = false) (h : step core = .ok outcome after) :
    ∃ i, fetchInstruction core = .ok i (core.advance i.width) ∧
      execute core.cpu.pc i (core.advance i.width) = .ok outcome after := by
  rcases hfetch : fetchInstruction core with ⟨i, mid⟩ | ⟨failure, mid⟩
  · obtain ⟨-, rfl⟩ := holds_of_fetchInstruction hfetch
    rw [step_of_fetch hrun hfetch] at h
    exact ⟨i, rfl, h⟩
  · rw [step_of_fetch_error hrun hfetch] at h
    cases h

/-- A step that fails has moved the program counter and changed nothing else. -/
theorem step_error (h : step core = .error cause after) : ∃ n, after = core.advance n := by
  obtain ⟨-, hstep⟩ | ⟨-, ⟨i, -, hstep⟩ | ⟨bytes, cause', -, -, -, -, hstep⟩⟩ := step_cases core
  · rw [hstep] at h
    cases h
  · rw [hstep] at h
    obtain ⟨done, hok, -⟩ | ⟨cause', -, herror⟩ :=
      execute_cases core.cpu.pc i (core.advance i.width)
    · rw [hok] at h
      cases h
    · rw [herror] at h
      cases h
      exact ⟨i.width, rfl⟩
  · rw [hstep] at h
    cases h
    exact ⟨bytes.length, rfl⟩

/-- A step that succeeds has written one cell of RAM or none. -/
theorem ram_of_step_ok (h : step core = .ok outcome after) :
    after.ram = core.ram ∨
      ∃ address : UInt16, core.ram.write address.toNat core.cpu.acc = .ok after.ram := by
  obtain ⟨-, hstep⟩ | ⟨-, ⟨i, -, hstep⟩ | ⟨bytes, cause, -, -, -, -, hstep⟩⟩ := step_cases core
  · rw [hstep] at h
    cases h
    exact .inl rfl
  · rw [hstep] at h
    obtain ⟨done, hok, hram | ⟨address, -, hwrite⟩⟩ | ⟨cause, -, herror⟩ :=
      execute_cases core.cpu.pc i (core.advance i.width)
    · rw [hok] at h
      cases h
      exact .inl hram
    · rw [hok] at h
      cases h
      exact .inr ⟨address, hwrite⟩
    · rw [herror] at h
      cases h
  · rw [hstep] at h
    cases h

end VirtualPC.Core
