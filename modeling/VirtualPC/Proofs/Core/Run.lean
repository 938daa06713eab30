/-
VirtualPC/Proofs/Core/Run.lean

Steps one after another.  `calls n core` calls `step` `n` times, whatever each call answers;
a run calls it until the budget is used up, the processor has halted or a step fails.

Main result: a run can be cut anywhere (`run_add`).  Where the first part completes, the
second takes over from the core it left, and the executed counts add up; where it halts or
faults, the whole run ends there.  The second part must not be started after a fault: a
failed step leaves the processor running, and only the machine halts it.

What every call preserves, a run preserves (`run_induction`), and so RAM keeps its size.
-/
import VirtualPC.Proofs.Core.Step

namespace VirtualPC

/-- The exit of a run that had executed `n` instructions before. -/
def RunExit.after (n : Nat) : RunExit → RunExit
  | .completed executed => .completed (n + executed)
  | .halted executed => .halted (n + executed)
  | .fault executed cause => .fault (n + executed) cause

@[simp] theorem RunExit.after_zero (exit : RunExit) : exit.after 0 = exit := by
  cases exit <;> simp [RunExit.after]

@[simp] theorem RunExit.executed_after (n : Nat) (exit : RunExit) :
    (exit.after n).executed = n + exit.executed := by
  cases exit <;> rfl

theorem RunExit.after_after (m n : Nat) (exit : RunExit) :
    (exit.after n).after m = exit.after (m + n) := by
  cases exit <;> simp [RunExit.after, Nat.add_assoc]

namespace Core

variable {core after : Core} {outcome : Outcome} {cause : Fault}

/-! ### Calls of `step` -/

/-- One call of `step`: what it answers and the core it leaves. -/
def call (core : Core) : Except Fault Outcome × Core :=
  match step core with
  | .ok outcome after => (.ok outcome, after)
  | .error cause after => (.error cause, after)

/-- `n` calls of `step`, whatever each one answers: the answers in order and the core left. -/
def calls : (n : Nat) → Core → List (Except Fault Outcome) × Core
  | 0, core => ([], core)
  | n + 1, core =>
    let (answers, last) := calls n core.call.2
    (core.call.1 :: answers, last)

theorem call_of_ok (h : step core = .ok outcome after) : core.call = (.ok outcome, after) := by
  simp [call, h]

theorem call_of_error (h : step core = .error cause after) :
    core.call = (.error cause, after) := by
  simp [call, h]

/-- A call, whatever it answers, leaves RAM its size. -/
@[simp] theorem size_call (core : Core) : core.call.2.ram.size = core.ram.size := by
  rcases hstep : step core with ⟨outcome, after⟩ | ⟨cause, after⟩
  · rw [call_of_ok hstep]
    obtain hram | ⟨address, hwrite⟩ := ram_of_step_ok hstep
    · exact congrArg Ram.size hram
    · exact Ram.size_write hwrite
  · rw [call_of_error hstep]
    obtain ⟨n, rfl⟩ := step_error hstep
    rfl

/-- Calls of `step`, whatever they answer, leave RAM its size. -/
theorem size_calls (n : Nat) (core : Core) : (calls n core).2.ram.size = core.ram.size := by
  induction n generalizing core with
  | zero => rfl
  | succ n ih =>
    rw [← size_call core]
    exact ih core.call.2

/-! ### Runs -/

theorem runFrom_eq_after (executed budget : Nat) (core : Core) :
    runFrom executed budget core
      = ((run budget core).1.after executed, (run budget core).2) := by
  induction budget generalizing executed core with
  | zero =>
    rcases h : core.cpu.halted with _ | _ <;> simp [run, runFrom, RunExit.after, h]
  | succ budget ih =>
    rcases hhalt : core.cpu.halted with _ | _
    · rcases hstep : step core with ⟨outcome, after⟩ | ⟨cause, after⟩
      · simp only [run, runFrom, hhalt, hstep, Bool.false_eq_true, ↓reduceIte]
        rw [ih (executed + 1), ih (0 + 1), RunExit.after_after]
      · simp [run, runFrom, RunExit.after, hhalt, hstep]
    · simp [run, runFrom, RunExit.after, hhalt]

@[simp] theorem run_zero (core : Core) :
    run 0 core = (if core.cpu.halted then .halted 0 else .completed 0, core) := rfl

/-- A halted processor executes nothing. -/
theorem run_of_halted (budget : Nat) (h : core.cpu.halted = true) :
    run budget core = (.halted 0, core) := by
  cases budget <;> simp [run, runFrom, h]

/-- A run whose first step succeeds goes on with the rest of the budget. -/
theorem run_succ_of_ok (budget : Nat) (h : core.cpu.halted = false)
    (hstep : step core = .ok outcome after) :
    run (budget + 1) core = ((run budget after).1.after 1, (run budget after).2) := by
  simp only [run, runFrom, h, hstep, Bool.false_eq_true, ↓reduceIte]
  exact runFrom_eq_after (0 + 1) budget after

/-- A run whose first step fails ends there. -/
theorem run_succ_of_error (budget : Nat) (h : core.cpu.halted = false)
    (hstep : step core = .error cause after) :
    run (budget + 1) core = (.fault 0 cause, after) := by
  simp [run, runFrom, h, hstep]

/-- **A run can be cut anywhere**: a first part that completes hands over to the second, and
one that halts or faults is the whole run. -/
theorem run_add (first second : Nat) (core : Core) :
    run (first + second) core =
      match run first core with
      | (.completed n, mid) => ((run second mid).1.after n, (run second mid).2)
      | ended => ended := by
  induction first generalizing core with
  | zero =>
    rw [Nat.zero_add, run_zero]
    rcases h : core.cpu.halted with _ | _
    · simp
    · simp [run_of_halted second h]
  | succ first ih =>
    rw [Nat.add_right_comm]
    rcases h : core.cpu.halted with _ | _
    · rcases hstep : step core with ⟨outcome, next⟩ | ⟨cause, next⟩
      -- the step counts for the first part, and the rest of it is cut by the hypothesis
      · rw [run_succ_of_ok _ h hstep, run_succ_of_ok _ h hstep, ih next]
        rcases run first next with ⟨exit, mid⟩
        -- only a completed first part goes on to the second
        cases exit with
        | completed n => exact Prod.ext (RunExit.after_after 1 n _) rfl
        | halted n => rfl
        | fault n cause => rfl
      · rw [run_succ_of_error _ h hstep, run_succ_of_error _ h hstep]
    · rw [run_of_halted _ h, run_of_halted _ h]

/-- Calls that have each executed an instruction are the start of every longer run. -/
theorem run_add_of_calls {trace : List Instruction} {n : Nat} {last : Core} (budget : Nat)
    (h : calls n core = (trace.map fun i => .ok (.executed i), last)) :
    run (n + budget) core = ((run budget last).1.after n, (run budget last).2) := by
  induction n generalizing core trace with
  | zero =>
    cases trace with
    | nil =>
      cases h
      rw [Nat.zero_add, RunExit.after_zero]
    | cons i rest => cases h
  | succ n ih =>
    cases trace with
    | nil => cases h
    | cons i rest =>
      obtain ⟨hanswers, hlast⟩ := Prod.mk.inj h
      obtain ⟨hfirst, hrest⟩ := List.cons.inj hanswers
      have hcalls := ih (Prod.ext hrest hlast)
      -- a call that has executed something is a step of a running processor
      rcases hhalt : core.cpu.halted with _ | _
      · rcases hstep : step core with ⟨outcome, next⟩ | ⟨cause, next⟩
        · rw [call_of_ok hstep] at hcalls
          rw [Nat.add_right_comm, run_succ_of_ok _ hhalt hstep, hcalls, RunExit.after_after,
            Nat.add_comm 1 n]
        · rw [call_of_error hstep] at hfirst
          cases hfirst
      · rw [call_of_ok (step_of_halted hhalt)] at hfirst
        cases hfirst

/-- What every call preserves, every run preserves. -/
theorem run_induction {P : Core → Prop} (hcall : ∀ core, P core → P core.call.2) (budget : Nat)
    (h : P core) : P (run budget core).2 := by
  induction budget generalizing core with
  | zero => exact h
  | succ budget ih =>
    have hnext := hcall core h
    rcases hhalt : core.cpu.halted with _ | _
    · rcases hstep : step core with ⟨outcome, next⟩ | ⟨cause, next⟩
      · rw [call_of_ok hstep] at hnext
        rw [run_succ_of_ok _ hhalt hstep]
        exact ih hnext
      · rw [call_of_error hstep] at hnext
        rw [run_succ_of_error _ hhalt hstep]
        exact hnext
    · rw [run_of_halted _ hhalt]
      exact h

/-- A run leaves RAM its size. -/
@[simp] theorem size_run (budget : Nat) (core : Core) :
    (run budget core).2.ram.size = core.ram.size := by
  refine run_induction (P := fun last => last.ram.size = core.ram.size) ?_ budget rfl
  intro mid hmid
  rw [size_call, hmid]

/-- A run executes no more than its budget. -/
theorem executed_run_le (budget : Nat) (core : Core) :
    (run budget core).1.executed ≤ budget := by
  induction budget generalizing core with
  | zero =>
    rw [run_zero]
    rcases core.cpu.halted with _ | _ <;> exact Nat.le_refl 0
  | succ budget ih =>
    rcases h : core.cpu.halted with _ | _
    · rcases hstep : step core with ⟨outcome, next⟩ | ⟨cause, next⟩
      · rw [run_succ_of_ok _ h hstep, RunExit.executed_after, Nat.add_comm]
        exact Nat.succ_le_succ (ih next)
      · rw [run_succ_of_error _ h hstep]
        exact Nat.zero_le _
    · rw [run_of_halted _ h]
      exact Nat.zero_le _

/-- The halt flag tells how a run ended, unless a step failed. -/
theorem halted_of_run (budget : Nat) (core : Core) :
    match run budget core with
    | (.completed _, last) => last.cpu.halted = false
    | (.halted _, last) => last.cpu.halted = true
    | (.fault _ _, _) => True := by
  induction budget generalizing core with
  | zero =>
    rcases h : core.cpu.halted with _ | _ <;> simp [h]
  | succ budget ih =>
    rcases h : core.cpu.halted with _ | _
    · rcases hstep : step core with ⟨outcome, next⟩ | ⟨cause, next⟩
      · have hnext := ih next
        rw [run_succ_of_ok _ h hstep]
        rcases hrun : run budget next with ⟨exit, last⟩
        rw [hrun] at hnext
        cases exit <;> exact hnext
      · simp [run_succ_of_error _ h hstep]
    · simp [run_of_halted _ h, h]

end Core

end VirtualPC
