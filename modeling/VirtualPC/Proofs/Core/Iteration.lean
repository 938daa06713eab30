/-
VirtualPC/Proofs/Core/Iteration.lean

A run is the iteration of `step`.  `calls k core` calls `step` `k` times and looks at nothing; a
run looks at the budget, at the halt flag and at what each step answers, and these three only
decide where it ends:

    completed   the budget is used up and the processor still runs
    halted      the processor is halted, be it by the last step of the budget
    fault       there is budget left, the processor runs, and the next step fails

Up to there each call finds a running processor and executes an instruction, the next one of
the trace (`step_calls`).  Where it is, only one of the three holds (`run_ends`).

Main result: `run_iterates_step`.  A run that completes has used up its budget, so it has
completed within every smaller budget too (`run_of_le`).
-/
import VirtualPC.Proofs.Core.Record

namespace VirtualPC.Core

variable {core last : Core} {i : Instruction} {budget n k : Nat}

/-! ### Calls in a row -/

/-- The core that one more call leaves. -/
theorem calls_succ (n : Nat) (core : Core) :
    (calls (n + 1) core).2 = (calls n core).2.call.2 := by
  induction n generalizing core with
  | zero => rfl
  | succ n ih => exact ih core.call.2

/-- What each of the calls answers. -/
theorem getElem?_calls (core : Core) (h : k < n) :
    (calls n core).1[k]? = some (calls k core).2.call.1 := by
  induction n generalizing core k with
  | zero => cases h
  | succ n ih =>
    cases k with
    | zero => rfl
    | succ k => exact ih core.call.2 (Nat.lt_of_succ_lt_succ h)

/-- Each call that a run makes finds a running processor and executes the next instruction of
the trace. -/
theorem step_calls (h : (trace budget core)[k]? = some i) :
    (calls k core).2.cpu.halted = false ∧
      step (calls k core).2 = .ok (.executed i) (calls (k + 1) core).2 := by
  have hlt : k < (trace budget core).length := (List.getElem?_eq_some_iff.1 h).1
  have hanswer := getElem?_calls core hlt
  rw [calls_trace, List.getElem?_map, h, Option.map_some] at hanswer
  have hcall : (calls k core).2.call.1 = .ok (.executed i) := (Option.some.inj hanswer).symm
  rw [calls_succ]
  rcases hhalt : (calls k core).2.cpu.halted with _ | _
  · rcases hstep : step (calls k core).2 with ⟨outcome, next⟩ | ⟨cause, next⟩
    · rw [call_of_ok hstep] at hcall ⊢
      cases hcall
      exact ⟨rfl, rfl⟩
    · rw [call_of_error hstep] at hcall
      cases hcall
  · rw [call_of_ok (step_of_halted hhalt)] at hcall
    cases hcall

/-! ### Where a run ends -/

/-- A run that executes nothing ends where it starts: the processor is halted, there is no
budget, or the first step fails. -/
theorem run_of_executed_zero (h : (run budget core).1.executed = 0) :
    (core.cpu.halted = true ∧ run budget core = (.halted 0, core)) ∨
    (core.cpu.halted = false ∧
      ((budget = 0 ∧ run budget core = (.completed 0, core)) ∨
        (0 < budget ∧ ∃ cause last, step core = .error cause last ∧
          run budget core = (.fault 0 cause, last)))) := by
  rcases hhalt : core.cpu.halted with _ | _
  · refine .inr ⟨rfl, ?_⟩
    cases budget with
    | zero => exact .inl ⟨rfl, by rw [run_zero, hhalt, if_neg Bool.false_ne_true]⟩
    | succ budget =>
      rcases hstep : step core with ⟨outcome, next⟩ | ⟨cause, last⟩
      -- a first step that succeeds has executed something
      · rw [run_succ_of_ok _ hhalt hstep, RunExit.executed_after] at h
        omega
      · exact .inr ⟨Nat.succ_pos _, cause, last, rfl, run_succ_of_error _ hhalt hstep⟩
  · exact .inl ⟨rfl, run_of_halted _ hhalt⟩

/-- **Where a run ends**, after the `k` instructions it has executed: the processor is halted,
the budget is used up, or the next step fails. -/
theorem run_ends (hk : (run budget core).1.executed = k) :
    ((calls k core).2.cpu.halted = true ∧ run budget core = (.halted k, (calls k core).2)) ∨
    ((calls k core).2.cpu.halted = false ∧
      ((k = budget ∧ run budget core = (.completed k, (calls k core).2)) ∨
        (k < budget ∧ ∃ cause last, step (calls k core).2 = .error cause last ∧
          run budget core = (.fault k cause, last)))) := by
  -- what is left of the budget is a run that executes nothing
  obtain ⟨rest, rfl⟩ : ∃ rest, budget = k + rest :=
    Nat.exists_eq_add_of_le (hk ▸ executed_run_le budget core)
  have hanswers := calls_trace (k + rest) core
  rw [length_trace, hk] at hanswers
  have hcalls : calls k core
      = ((trace (k + rest) core).map fun i => .ok (.executed i), (calls k core).2) :=
    Prod.ext hanswers rfl
  have hrun := run_add_of_calls rest hcalls
  have hrest : (run rest (calls k core).2).1.executed = 0 := by
    rw [hrun, RunExit.executed_after] at hk
    omega
  obtain ⟨hhalt, hend⟩ | ⟨hhalt, ⟨rfl, hend⟩ | ⟨hpos, cause, last, hstep, hend⟩⟩ :=
    run_of_executed_zero hrest
  · rw [hend] at hrun
    exact .inl ⟨hhalt, hrun⟩
  · rw [hend] at hrun
    exact .inr ⟨hhalt, .inl ⟨rfl, hrun⟩⟩
  · rw [hend] at hrun
    exact .inr ⟨hhalt, .inr ⟨Nat.lt_add_of_pos_right hpos, cause, last, hstep, hrun⟩⟩

/-! ### Smaller budgets -/

/-- A run that completes has executed its whole budget. -/
theorem eq_of_run_completed (h : run budget core = (.completed k, last)) : k = budget := by
  have hk : (run budget core).1.executed = k := by
    rw [h]
    rfl
  obtain ⟨-, hend⟩ | ⟨-, ⟨hbudget, -⟩ | ⟨-, cause, last', -, hend⟩⟩ := run_ends hk
  · rw [h] at hend
    cases hend
  · exact hbudget
  · rw [h] at hend
    cases hend

/-- Where a run completes, every shorter one does. -/
theorem run_of_le (h : run budget core = (.completed k, last)) (hn : n ≤ budget) :
    ∃ mid, run n core = (.completed n, mid) := by
  obtain ⟨rest, rfl⟩ := Nat.exists_eq_add_of_le hn
  rw [run_add] at h
  rcases hrun : run n core with ⟨exit, mid⟩
  rw [hrun] at h
  -- the first part has not ended the run
  cases exit with
  | completed j =>
    obtain rfl := eq_of_run_completed hrun
    exact ⟨mid, rfl⟩
  | halted j => cases h
  | fault j cause => cases h

/-! ### Iteration -/

/-- **A run is the iteration of `step`.**  For every core and budget, the run has executed some
number `k` of instructions within the budget: the first `k` calls of `step` each find a
running processor and execute an instruction.  Let `mid` be the core that they lead to.  The
run ends with a fault exactly if there is budget left and the next step of a running `mid`
fails, and it ends with that fault and with what the failing step leaves; it ends halted
exactly if `mid` is, and completed exactly if the budget is used up and `mid` runs, and it
leaves `mid` then. -/
theorem run_iterates_step (core : Core) (budget : Nat) :
    ∃ k, (run budget core).1.executed = k ∧ k ≤ budget ∧
      (∀ j < k, (calls j core).2.cpu.halted = false ∧
        ∃ i, step (calls j core).2 = .ok (.executed i) (calls (j + 1) core).2) ∧
      let mid := (calls k core).2
      (∀ cause last, run budget core = (.fault k cause, last) ↔
        k < budget ∧ mid.cpu.halted = false ∧ step mid = .error cause last) ∧
      (∀ last, run budget core = (.halted k, last) ↔ mid.cpu.halted = true ∧ last = mid) ∧
      (∀ last, run budget core = (.completed k, last) ↔
        k = budget ∧ mid.cpu.halted = false ∧ last = mid) := by
  obtain ⟨k, hk⟩ : ∃ k, (run budget core).1.executed = k := ⟨_, rfl⟩
  refine ⟨k, hk, hk ▸ executed_run_le budget core, ?_, ?_⟩
  · intro j hj
    rw [← hk, ← length_trace] at hj
    obtain ⟨hrun, hstep⟩ := step_calls (List.getElem?_eq_getElem hj)
    exact ⟨hrun, _, hstep⟩
  · obtain ⟨hhalt, hend⟩ | ⟨hhalt, ⟨rfl, hend⟩ | ⟨hlt, cause, last, hstep, hend⟩⟩ :=
      run_ends hk
    · simp [hend, hhalt, eq_comm]
    · simp [hend, hhalt, eq_comm]
    · simp [hend, hhalt, hstep, hlt, Nat.ne_of_lt hlt]

end VirtualPC.Core
