/-
VirtualPC/Proofs/Machine/Execution.lean

The part of a machine that running reads and changes: the core and the fault latch.  Running
a machine is running this part (`runSlice_eq`); layout, surface, display and counters stay
out of it.

A fault halts the processor, so nothing is executed after one.  This is what makes slices
compose: running `first + second` instructions is running `first` and then `second`
(`slice_add`), whatever ends the first slice.  Main result: any cutting of a budget into
slices comes to the same as one slice of the sum (`slices_eq_slice_sum`).
-/
import Mathlib.Algebra.GroupWithZero.Nat
import VirtualPC.Machine
import VirtualPC.Proofs.Core.Run

namespace VirtualPC

/-! ### Exits -/

/-- The fault a run ended with. -/
def RunExit.fault? : RunExit → Option Fault
  | .fault _ cause => some cause
  | .completed _ | .halted _ => none

/-- The exit of a run followed by another: only a completed one goes on. -/
def RunExit.andThen : RunExit → RunExit → RunExit
  | .completed n, next => next.after n
  | .halted n, _ => .halted n
  | .fault n cause, _ => .fault n cause

/-- Whether a run ended with its budget. -/
def RunExit.isCompleted : RunExit → Bool
  | .completed _ => true
  | .halted _ | .fault _ _ => false

@[simp] theorem RunExit.fault?_after (n : Nat) (exit : RunExit) :
    (exit.after n).fault? = exit.fault? := by
  cases exit <;> rfl

/-- A run ended with a fault exactly if that fault can be read off its exit. -/
theorem RunExit.fault_iff (exit : RunExit) (cause : Fault) :
    (∃ n, exit = .fault n cause) ↔ exit.fault?.toList = [cause] := by
  cases exit <;> simp [RunExit.fault?]

/-- The core and the fault latch. -/
structure Execution where
  core : Core
  lastFault : Option Fault

namespace Execution

variable {x : Execution} {budget : Nat}

/-- Runs at most `budget` instructions; a fault halts the processor and is latched. -/
def slice (x : Execution) (budget : Nat) : RunExit × Execution :=
  match x.core.run budget with
  | (.fault n cause, core) => (.fault n cause, ⟨{ core with cpu := core.cpu.halt }, some cause⟩)
  | (exit, core) => (exit, ⟨core, x.lastFault⟩)

/-- Runs slices one after another: their exits in order and what they leave. -/
def slices : List Nat → Execution → List RunExit × Execution
  | [], x => ([], x)
  | budget :: rest, x =>
    let (exits, last) := slices rest (x.slice budget).2
    ((x.slice budget).1 :: exits, last)

/-! ### One slice -/

/-- A halted processor executes nothing. -/
theorem slice_of_halted (budget : Nat) (h : x.core.cpu.halted = true) :
    x.slice budget = (.halted 0, x) := by
  rw [slice, Core.run_of_halted budget h]

theorem slice_zero (x : Execution) :
    x.slice 0 = (if x.core.cpu.halted then .halted 0 else .completed 0, x) := by
  rw [slice, Core.run_zero]
  rcases x.core.cpu.halted with _ | _ <;> rfl

/-- A slice ends as the run of the core does. -/
theorem slice_exit (x : Execution) (budget : Nat) :
    (x.slice budget).1 = (x.core.run budget).1 := by
  unfold slice
  rcases x.core.run budget with ⟨exit, core⟩
  cases exit <;> rfl

/-- A slice executes no more than its budget. -/
theorem executed_slice_le (x : Execution) (budget : Nat) :
    (x.slice budget).1.executed ≤ budget := by
  rw [slice_exit]
  exact Core.executed_run_le budget x.core

/-- The three ways a slice ends, and what each leaves behind. -/
theorem slice_cases (x : Execution) (budget : Nat) :
    (∃ n core, x.slice budget = (.completed n, ⟨core, x.lastFault⟩) ∧ core.cpu.halted = false) ∨
    (∃ n core, x.slice budget = (.halted n, ⟨core, x.lastFault⟩) ∧ core.cpu.halted = true) ∨
    (∃ n cause core, x.slice budget = (.fault n cause, ⟨core, some cause⟩) ∧
      core.cpu.halted = true) := by
  have hhalted := Core.halted_of_run budget x.core
  unfold slice
  rcases hrun : x.core.run budget with ⟨exit, core⟩
  rw [hrun] at hhalted
  cases exit with
  | completed n => exact .inl ⟨n, core, rfl, hhalted⟩
  | halted n => exact .inr (.inl ⟨n, core, rfl, hhalted⟩)
  | fault n cause => exact .inr (.inr ⟨n, cause, _, rfl, rfl⟩)

/-- A slice leaves RAM its size. -/
@[simp] theorem size_slice (x : Execution) (budget : Nat) :
    (x.slice budget).2.core.ram.size = x.core.ram.size := by
  have hsize := Core.size_run budget x.core
  unfold slice
  rcases hrun : x.core.run budget with ⟨exit, core⟩
  rw [hrun] at hsize
  cases exit <;> exact hsize

/-- What ends a slice before its budget does halts the processor. -/
theorem halted_of_slice (h : (x.slice budget).1.isCompleted = false) :
    (x.slice budget).2.core.cpu.halted = true := by
  obtain ⟨n, core, hslice, -⟩ | ⟨n, core, hslice, hcore⟩ | ⟨n, cause, core, hslice, hcore⟩ :=
    slice_cases x budget
  · rw [hslice] at h
    cases h
  · rw [hslice]
    exact hcore
  · rw [hslice]
    exact hcore

/-- Of the slices that did not fault, those that halted are told by the halt flag. -/
theorem slice_exit_iff (x : Execution) (budget : Nat) :
    ((∃ n, (x.slice budget).1 = .halted n) ↔
      (x.slice budget).1.fault?.toList = [] ∧ (x.slice budget).2.core.cpu.halted = true) ∧
    ((∃ n, (x.slice budget).1 = .completed n) ↔
      (x.slice budget).1.fault?.toList = [] ∧ (x.slice budget).2.core.cpu.halted = false) := by
  obtain ⟨n, core, hslice, hcore⟩ | ⟨n, core, hslice, hcore⟩ | ⟨n, cause, core, hslice, -⟩ :=
    slice_cases x budget
  · simp [hslice, hcore, RunExit.fault?]
  · simp [hslice, hcore, RunExit.fault?]
  · simp [hslice, RunExit.fault?]

/-- **Slices compose**: nothing runs after a halt or a fault, and a completed slice hands over
to the next. -/
theorem slice_add (x : Execution) (first second : Nat) :
    x.slice (first + second)
      = ((x.slice first).1.andThen ((x.slice first).2.slice second).1,
        ((x.slice first).2.slice second).2) := by
  rcases hrun : x.core.run first with ⟨exit, mid⟩
  have hsum := Core.run_add first second x.core
  rw [hrun] at hsum
  cases exit with
  | completed n =>
    -- the latch is as it was, so the second slice is a run from where the first ended
    have hfirst : x.slice first = (.completed n, ⟨mid, x.lastFault⟩) := by rw [slice, hrun]
    rcases hnext : mid.run second with ⟨next, last⟩
    have hsum : x.core.run (first + second) = (next.after n, last) := by
      rw [hsum]
      simp only [hnext]
    rw [hfirst]
    cases next <;> (rw [slice, hsum, slice, hnext]; rfl)
  | halted n =>
    have hfirst : x.slice first = (.halted n, ⟨mid, x.lastFault⟩) := by rw [slice, hrun]
    have hstop : (x.slice first).2.core.cpu.halted = true :=
      halted_of_slice (by rw [hfirst]; rfl)
    rw [slice_of_halted second hstop, hfirst, slice, hsum]
    rfl
  | fault n cause =>
    have hfirst : x.slice first
        = (.fault n cause, ⟨{ mid with cpu := mid.cpu.halt }, some cause⟩) := by
      rw [slice, hrun]
    have hstop : (x.slice first).2.core.cpu.halted = true :=
      halted_of_slice (by rw [hfirst]; rfl)
    rw [slice_of_halted second hstop, hfirst, slice, hsum]
    rfl

/-! ### The fault latch -/

/-- A latched fault has halted the processor. -/
def Latched (x : Execution) : Prop := x.lastFault.isSome = true → x.core.cpu.halted = true

/-- A slice that latches a fault halts the processor, and one that starts after a fault does
nothing. -/
theorem Latched.slice (h : x.Latched) (budget : Nat) : (x.slice budget).2.Latched := by
  intro hfault
  obtain ⟨n, core, hslice, hcore⟩ | ⟨n, core, hslice, hcore⟩ | ⟨n, cause, core, hslice, hcore⟩ :=
    slice_cases x budget
  -- a slice completes only from a running processor, so no fault was latched before it
  · rw [hslice] at hfault
    have hidle := slice_of_halted budget (h hfault)
    rw [hidle] at hslice
    cases hslice
  · rw [hslice]
    exact hcore
  · rw [hslice]
    exact hcore

/-- What is latched after a slice is what was latched before or the fault of its exit, and
never both. -/
theorem Latched.lastFault_slice (h : x.Latched) (budget : Nat) :
    (x.slice budget).2.lastFault.toList
      = x.lastFault.toList ++ (x.slice budget).1.fault?.toList := by
  rcases hfault : x.lastFault with _ | latched
  · obtain ⟨n, core, hslice, -⟩ | ⟨n, core, hslice, -⟩ | ⟨n, cause, core, hslice, -⟩ :=
      slice_cases x budget
    · rw [hslice, hfault]
      rfl
    · rw [hslice, hfault]
      rfl
    · rw [hslice]
      rfl
  -- what was latched has halted the processor, and the slice does nothing
  · have hhalted : x.core.cpu.halted = true := h (by rw [hfault]; rfl)
    rw [slice_of_halted budget hhalted, hfault]
    rfl

/-! ### Many slices -/

theorem slices_append (first second : List Nat) (x : Execution) :
    slices (first ++ second) x
      = ((slices first x).1 ++ (slices second (slices first x).2).1,
        (slices second (slices first x).2).2) := by
  induction first generalizing x with
  | nil => rfl
  | cons budget rest ih => simp only [List.cons_append, slices, ih]

@[simp] theorem length_slices (budgets : List Nat) (x : Execution) :
    (slices budgets x).1.length = budgets.length := by
  induction budgets generalizing x with
  | nil => rfl
  | cons budget rest ih => simp only [slices, List.length_cons, ih]

/-- A slice that did not complete leaves nothing for the next one to do. -/
theorem andThen_slice (x : Execution) (first second : Nat) :
    ((x.slice first).1.andThen ((x.slice first).2.slice second).1).executed
        = (x.slice first).1.executed + ((x.slice first).2.slice second).1.executed ∧
      ((x.slice first).1.andThen ((x.slice first).2.slice second).1).fault?.toList
        = (x.slice first).1.fault?.toList ++ ((x.slice first).2.slice second).1.fault?.toList := by
  rcases hexit : (x.slice first).1 with n | n | ⟨n, cause⟩
  -- after a halt or a fault the second exit is `.halted 0`, which adds nothing
  · exact ⟨RunExit.executed_after n _, congrArg Option.toList (RunExit.fault?_after n _)⟩
  · rw [slice_of_halted second (halted_of_slice (by rw [hexit]; rfl))]
    exact ⟨rfl, rfl⟩
  · rw [slice_of_halted second (halted_of_slice (by rw [hexit]; rfl))]
    exact ⟨rfl, rfl⟩

theorem executed_slice_add (x : Execution) (first second : Nat) :
    (x.slice (first + second)).1.executed
      = (x.slice first).1.executed + ((x.slice first).2.slice second).1.executed := by
  rw [slice_add]
  exact (andThen_slice x first second).1

/-- A slice faults in its first part or, if not there, in its second. -/
theorem fault?_slice_add (x : Execution) (first second : Nat) :
    (x.slice (first + second)).1.fault?
      = (x.slice first).1.fault?.or ((x.slice first).2.slice second).1.fault? := by
  rw [slice_add]
  rcases hexit : (x.slice first).1 with n | n | ⟨n, cause⟩
  · exact RunExit.fault?_after n _
  · rw [slice_of_halted second (halted_of_slice (by rw [hexit]; rfl))]
    rfl
  · rfl

/-- **Cutting a budget into slices changes nothing**: they leave what one slice of the sum
leaves, execute as much in all, and fault where it does. -/
theorem slices_eq_slice_sum (budgets : List Nat) (x : Execution) :
    (slices budgets x).2 = (x.slice budgets.sum).2 ∧
    ((slices budgets x).1.map RunExit.executed).sum = (x.slice budgets.sum).1.executed ∧
    (slices budgets x).1.filterMap RunExit.fault? = (x.slice budgets.sum).1.fault?.toList := by
  induction budgets generalizing x with
  | nil =>
    rcases h : x.core.cpu.halted with _ | _ <;>
      simp [slices, slice, h, RunExit.executed, RunExit.fault?]
  | cons budget rest ih =>
    obtain ⟨hlast, hexecuted, hfaults⟩ := ih (x.slice budget).2
    obtain ⟨hsum, happend⟩ := andThen_slice x budget rest.sum
    rw [List.sum_cons, slice_add]
    refine ⟨hlast, ?_, ?_⟩
    · rw [hsum, ← hexecuted]
      rfl
    · rw [happend, ← hfaults]
      rcases h : (x.slice budget).1.fault? with _ | cause <;> simp [slices, h]

end Execution

/-! ### Running a machine -/

namespace Machine

/-- The core and the fault latch of a machine. -/
def execution (m : Machine) : Execution := ⟨m.core, m.lastFault⟩

/-- A machine runs by its core and fault latch, and nothing else of it changes. -/
theorem runSlice_eq (m : Machine) (budget : Nat) :
    m.runSlice budget = ((m.execution.slice budget).1,
      { m with
        core := (m.execution.slice budget).2.core
        lastFault := (m.execution.slice budget).2.lastFault }) := by
  obtain ⟨config, core, surface, display, rom, ticks, lastFault⟩ := m
  rcases hrun : core.run budget with ⟨exit, after⟩
  simp only [runSlice, Execution.slice, execution, hrun]
  cases exit <;> rfl

/-- A machine whose core does not fault keeps everything else. -/
theorem runSlice_of_run {m : Machine} {budget : Nat} {exit : RunExit} {last : Core}
    (h : m.core.run budget = (exit, last)) (hexit : exit.fault? = none) :
    m.runSlice budget = (exit, { m with core := last }) := by
  have hslice : m.execution.slice budget = (exit, ⟨last, m.lastFault⟩) := by
    rw [Execution.slice, show m.execution.core = m.core from rfl, h]
    cases exit with
    | completed n => rfl
    | halted n => rfl
    | fault n cause => cases hexit
  rw [runSlice_eq, hslice]

/-- A halted machine executes nothing. -/
theorem runSlice_of_halted {m : Machine} (budget : Nat) (h : m.core.cpu.halted = true) :
    m.runSlice budget = (.halted 0, m) := by
  rw [runSlice_eq, Execution.slice_of_halted budget h]
  rfl

end Machine

end VirtualPC
