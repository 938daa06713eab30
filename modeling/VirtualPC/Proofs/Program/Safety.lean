/-
VirtualPC/Proofs/Program/Safety.lean

Programs that never fault.  A well-formed program takes a step wherever it stands, unless it
has stopped or run past its end; and it cannot run past its end if the last instruction is a
jump or a `halt`:

    Closed program

Such a program stays where it is well defined (`State.Inside`) from step to step, and the
processor, which follows it, never finds anything that it could fault on.

Main result: once the image of a closed well-formed program is loaded, no run of any length
ends with a fault (`run_ne_fault`).
-/
import VirtualPC.Proofs.Program.Refinement

namespace VirtualPC.Program

variable {base : UInt16} {size budget : Nat} {program : List Instruction} {s after : State}
variable {core : Core} {i : Instruction}

/-- The program ends with an instruction that does not go on to the next one. -/
def Closed (program : List Instruction) : Prop :=
  ∃ front last, program = front ++ [last] ∧ (last = .halt ∨ ∃ target, last = .jump target)

/-- The program has stopped or stands at one of its instructions. -/
def State.Inside (program : List Instruction) (s : State) : Prop :=
  s.stopped = true ∨ s.index < program.length

/-- The instructions that go on to the next one are not the last of a closed program. -/
theorem Closed.succ_lt (hclosed : Closed program) {index : Nat} (hi : program[index]? = some i)
    (hhalt : i ≠ .halt) (hjump : ∀ target, i ≠ .jump target) : index + 1 < program.length := by
  obtain ⟨front, last, rfl, hlast⟩ := hclosed
  have hlt := (List.getElem?_eq_some_iff.1 hi).1
  rw [List.length_append, List.length_singleton] at hlt ⊢
  refine Nat.lt_of_not_le fun hge => ?_
  obtain rfl : index = front.length := by omega
  rw [List.getElem?_concat_length] at hi
  obtain rfl : last = i := Option.some.inj hi
  obtain rfl | ⟨target, rfl⟩ := hlast
  · exact hhalt rfl
  · exact hjump target rfl

/-- A closed program stays inside. -/
theorem State.Inside.step (hclosed : Closed program)
    (h : step? base.toNat program s = some (i, after)) : after.Inside program := by
  obtain ⟨-, hi, hafter⟩ := step?_eq_some_iff.1 h
  have hnext := hclosed.succ_lt hi
  -- a jump leads to an index of the program, a `halt` stops it, and all else goes on
  cases i with
  | jump target =>
    obtain ⟨index, hindex, rfl⟩ := Option.map_eq_some_iff.1 hafter
    exact .inr (indexAt?_eq_some_iff.1 hindex).1
  | jumpIfZero target =>
    by_cases hacc : s.acc = 0
    · rw [carryOut?, if_pos hacc] at hafter
      obtain ⟨index, hindex, rfl⟩ := Option.map_eq_some_iff.1 hafter
      exact .inr (indexAt?_eq_some_iff.1 hindex).1
    · rw [carryOut?, if_neg hacc] at hafter
      cases hafter
      exact .inr (hnext (by simp) (by simp))
  | halt =>
    cases hafter
    exact .inl rfl
  | store address =>
    obtain ⟨ram, -, rfl⟩ := carryOut?_store.1 hafter
    exact .inr (hnext (by simp) (by simp))
  | load address =>
    obtain ⟨byte, -, rfl⟩ := Option.map_eq_some_iff.1 hafter
    exact .inr (hnext (by simp) (by simp))
  | unknown byte => cases hafter
  | nop | loadImmediate | addImmediate | subImmediate =>
    cases hafter
    exact .inr (hnext (by simp) (by simp))

/-- A well-formed program that is inside and has not stopped takes a step, and the processor
takes it too. -/
theorem Matches.exists_step (hp : WellFormed base.toNat size program) (hclosed : Closed program)
    (h : Matches base program s core) (hsize : s.ram.size = size) (hinside : s.Inside program)
    (hrun : core.cpu.halted = false) :
    ∃ i after last, Core.step core = .ok (.executed i) last ∧ Matches base program after last ∧
      after.ram.size = size ∧ after.Inside program := by
  have hstopped : s.stopped = false := h.halted.symm.trans hrun
  have hindex : s.index < program.length := by
    obtain hstop | hlt := hinside
    · rw [hstopped] at hstop
      cases hstop
    · exact hlt
  rcases hstep : step? base.toNat program s with _ | ⟨i, after⟩
  · obtain hstop | hge := (step?_eq_none_iff hp hsize).1 hstep
    · rw [hstopped] at hstop
      cases hstop
    · omega
  · obtain ⟨last, hcall, hlast⟩ := h.step hp hstep
    obtain ⟨-, -, hafter⟩ := step?_eq_some_iff.1 hstep
    exact ⟨i, after, last, hcall, hlast, (size_carryOut? hafter).trans hsize,
      State.Inside.step hclosed hstep⟩

theorem Matches.run_ne_fault (hp : WellFormed base.toNat size program)
    (hclosed : Closed program) (h : Matches base program s core) (hsize : s.ram.size = size)
    (hinside : s.Inside program) (budget n : Nat) (cause : Fault) :
    (Core.run budget core).1 ≠ .fault n cause := by
  induction budget generalizing s core n with
  | zero =>
    rw [Core.run_zero]
    rcases core.cpu.halted with _ | _ <;> simp
  | succ budget ih =>
    rcases hhalt : core.cpu.halted with _ | _
    · obtain ⟨i, after, next, hstep, hnext, hsize', hinside'⟩ :=
        h.exists_step hp hclosed hsize hinside hhalt
      rw [Core.run_succ_of_ok _ hhalt hstep]
      rcases hrun : Core.run budget next with ⟨exit, last⟩
      have hrest := ih hnext hsize' hinside'
      rw [hrun] at hrest
      cases exit with
      | completed k => simp [RunExit.after]
      | halted k => simp [RunExit.after]
      | fault k cause' =>
        -- the rest of the run would have faulted for the same cause
        intro hfault
        cases hfault
        exact hrest k rfl
    · rw [Core.run_of_halted _ hhalt]
      simp

/-- **A closed well-formed program never faults**, whatever else is in RAM and however long it
runs. -/
theorem run_ne_fault (hp : WellFormed base.toNat size program) (hclosed : Closed program)
    {before loaded : Ram} (hsize : before.size = size)
    (hload : before.writeBlock base.toNat (Instruction.encodeAll program) = .ok loaded)
    (budget n : Nat) (cause : Fault) :
    (Core.run budget ⟨Cpu.boot base.toNat, loaded⟩).1 ≠ .fault n cause := by
  refine (matches_start hload).run_ne_fault hp hclosed ?_ ?_ budget n cause
  · exact (Ram.size_writeBlock hload).trans hsize
  · obtain ⟨front, last, rfl, -⟩ := hclosed
    refine .inr ?_
    show 0 < (front ++ [last]).length
    simp

end VirtualPC.Program
