/-
VirtualPC/Proofs/Machine/Slicing.lean

How a budget is cut up does not matter to the guest.  Between loads, reboots and writes from
outside, a host only runs the guest, by slices or ticks, looks at the display and draws on
the surface (`Operation.OnlyRuns`).  None of this but the running reaches the guest, provided
no tick presents the surface over guest RAM.

Main result: after such a history the core and the fault latch are those after one slice of
the summed budgets, and the exits of the pieces say together what the exit of that slice says
(`runSlice_sum_of_onlyRuns`).
-/
import VirtualPC.Proofs.Machine.Execution
import VirtualPC.Proofs.Machine.Transition

namespace VirtualPC

open Execution

namespace Operation

/-- The budgets an operation runs the guest with, in a machine of `cycles` a tick. -/
def budgets (cycles : Nat) : Operation → List Nat
  | .runSlice budget => [budget]
  | .tick => [cycles]
  | .loadProgram _ | .loadSample _ | .reboot | .present | .render | .write _ _
  | .writeBlock _ _ | .draw _ => []

/-- The operation does nothing to the guest but run it.  A tick that presents the surface
does more. -/
def OnlyRuns (video : VideoSource) : Operation → Prop
  | .runSlice _ | .render | .draw _ => True
  | .tick => video = .guest
  | .loadProgram _ | .loadSample _ | .reboot | .present | .write _ _ | .writeBlock _ _ => False

end Operation

namespace Machine

/-! ### One operation -/

/-- A tick of a machine whose window belongs to the guest runs a slice, and what else it does
stays out of the core. -/
theorem tick_guest {m : Machine} (h : m.config.video = .guest) :
    ∃ report after, m.tick = .ok (report, after) ∧
      report.exit = (m.execution.slice m.config.cyclesPerTick).1 ∧ after.config = m.config ∧
      after.execution = (m.execution.slice m.config.cyclesPerTick).2 := by
  have hmid : (m.runSlice m.config.cyclesPerTick).2.presented
      = .ok (m.runSlice m.config.cyclesPerTick).2 := by
    rw [presented, runSlice_eq, h]
  refine ⟨_, _, tick_eq_ok_iff.2 ⟨_, hmid, rfl, rfl⟩, ?_⟩
  rw [runSlice_eq]
  exact ⟨rfl, rfl, rfl⟩

/-- An operation that only runs the guest runs the slices of its budgets. -/
theorem apply_of_onlyRuns {m : Machine} {op : Operation} (hop : op.OnlyRuns m.config.video) :
    (m.apply op).2.config = m.config ∧
    (m.apply op).2.execution
      = (slices (op.budgets m.config.cyclesPerTick) m.execution).2 ∧
    (m.apply op).1.exit?.toList
      = (slices (op.budgets m.config.cyclesPerTick) m.execution).1 := by
  cases op with
  | runSlice budget =>
    rw [apply, runSlice_eq]
    exact ⟨rfl, rfl, rfl⟩
  | tick =>
    obtain ⟨report, after, htick, hexit, hconfig, hexecution⟩ := tick_guest hop
    simp only [apply, htick]
    exact ⟨hconfig, hexecution, congrArg (fun exit => [exit]) hexit⟩
  | render => exact ⟨rfl, rfl, rfl⟩
  | draw d => exact ⟨rfl, rfl, rfl⟩
  | loadProgram | loadSample | reboot | present | write | writeBlock => exact hop.elim

/-! ### Histories -/

/-- A history that only runs the guest runs the slices of its budgets, in order. -/
theorem applyAll_of_onlyRuns {m : Machine} {ops : List Operation}
    (hops : ∀ op ∈ ops, op.OnlyRuns m.config.video) :
    (m.applyAll ops).2.execution
      = (slices (ops.flatMap (Operation.budgets m.config.cyclesPerTick)) m.execution).2 ∧
    (m.applyAll ops).1.filterMap Answer.exit?
      = (slices (ops.flatMap (Operation.budgets m.config.cyclesPerTick)) m.execution).1 := by
  induction ops generalizing m with
  | nil => exact ⟨rfl, rfl⟩
  | cons op rest ih =>
    obtain ⟨hconfig, hexecution, hexit⟩ := apply_of_onlyRuns (hops op List.mem_cons_self)
    -- the layout is still the same, so what ticks do is too
    have hrest : ∀ op' ∈ rest, op'.OnlyRuns (m.apply op).2.config.video := by
      intro op' hmem
      rw [hconfig]
      exact hops op' (List.mem_cons_of_mem op hmem)
    obtain ⟨hlast, hexits⟩ := ih hrest
    rw [hconfig, hexecution] at hlast hexits
    rw [List.flatMap_cons, slices_append]
    refine ⟨hlast, ?_⟩
    show List.filterMap Answer.exit? ((m.apply op).1 :: ((m.apply op).2.applyAll rest).1) = _
    rw [← hexit, ← hexits]
    rcases h : (m.apply op).1.exit? with _ | exit <;> simp [h]

/-- **How a budget is cut up does not matter to the guest.**  After operations that only run
it, the core and the fault latch are those after one slice of the summed budgets.  The
pieces, each of which has run, execute as much in all as that slice; it faults exactly if one
of them does, and once; and it ends halted or completed, if none does, as the processor is
then halted or not. -/
theorem runSlice_sum_of_onlyRuns (m : Machine) (ops : List Operation)
    (hops : ∀ op ∈ ops, op.OnlyRuns m.config.video) :
    let budgets := ops.flatMap (Operation.budgets m.config.cyclesPerTick)
    let exits := (m.applyAll ops).1.filterMap Answer.exit?
    let last := (m.applyAll ops).2
    let whole := m.runSlice budgets.sum
    exits.length = budgets.length ∧
    last.core = whole.2.core ∧ last.lastFault = whole.2.lastFault ∧
    (exits.map RunExit.executed).sum = whole.1.executed ∧
    (∀ cause, (∃ n, whole.1 = .fault n cause) ↔ exits.filterMap RunExit.fault? = [cause]) ∧
    ((∃ n, whole.1 = .halted n) ↔
      exits.filterMap RunExit.fault? = [] ∧ last.core.cpu.halted = true) ∧
    ((∃ n, whole.1 = .completed n) ↔
      exits.filterMap RunExit.fault? = [] ∧ last.core.cpu.halted = false) := by
  intro budgets exits last whole
  obtain ⟨hexecution, hexits⟩ := applyAll_of_onlyRuns hops
  obtain ⟨hsum, hexecuted, hfaults⟩ := slices_eq_slice_sum budgets m.execution
  have hexit : whole.1 = (m.execution.slice budgets.sum).1 := by
    show (m.runSlice budgets.sum).1 = _
    rw [runSlice_eq]
  have hlast : last.execution = (m.execution.slice budgets.sum).2 := hexecution.trans hsum
  have hwhole : whole.2.execution = (m.execution.slice budgets.sum).2 := by
    show (m.runSlice budgets.sum).2.execution = _
    rw [runSlice_eq]
    rfl
  have hcore : last.core = (m.execution.slice budgets.sum).2.core :=
    congrArg Execution.core hlast
  have hfaults : exits.filterMap RunExit.fault? = whole.1.fault?.toList := by
    rw [hexit, ← hfaults]
    exact congrArg (List.filterMap RunExit.fault?) hexits
  refine ⟨?_, ?_, ?_, ?_, ?_, ?_, ?_⟩
  · exact (congrArg List.length hexits).trans (length_slices budgets m.execution)
  · exact congrArg Execution.core (hlast.trans hwhole.symm)
  · exact congrArg Execution.lastFault (hlast.trans hwhole.symm)
  · rw [hexit, ← hexecuted]
    exact congrArg (fun exits => (exits.map RunExit.executed).sum) hexits
  · intro cause
    rw [hfaults]
    exact RunExit.fault_iff whole.1 cause
  · rw [hfaults, hexit, hcore]
    exact (slice_exit_iff m.execution budgets.sum).1
  · rw [hfaults, hexit, hcore]
    exact (slice_exit_iff m.execution budgets.sum).2

/-- A layout whose sixteen bytes of RAM belong to the guest. -/
def guestLayout : Config where
  ramSize := 16
  vramStart := 8
  width := 2
  height := 2
  cyclesPerTick := 2
  video := .guest

/-- Four pieces of a run over sixteen zero bytes, which leaves RAM in the last of them. -/
def piecewise : List Operation :=
  [.runSlice 10, .render, .tick, .draw (.clear 1), .tick, .runSlice 5]

theorem piecewise_eq_runSlice : ∃ m, create guestLayout = .ok m ∧
    (∀ op ∈ piecewise, op.OnlyRuns m.config.video) ∧
    (m.applyAll piecewise).2.core = (m.runSlice 19).2.core ∧
    (m.applyAll piecewise).2.lastFault = (m.runSlice 19).2.lastFault ∧
    (m.runSlice 19).1 = .fault 16 (.memory 16 (.addressOutOfRange 16 16)) ∧
    (((m.applyAll piecewise).1.filterMap Answer.exit?).map RunExit.executed).sum = 16 ∧
    ((m.applyAll piecewise).1.filterMap Answer.exit?).filterMap RunExit.fault?
      = [.memory 16 (.addressOutOfRange 16 16)] := by
  have hops : ∀ op ∈ piecewise, op.OnlyRuns .guest := by
    simp [piecewise, Operation.OnlyRuns]
  obtain ⟨m, hm, hconfig, hwhole⟩ : ∃ m, create guestLayout = .ok m ∧ m.config = guestLayout ∧
      (m.runSlice 19).1 = .fault 16 (.memory 16 (.addressOutOfRange 16 16)) :=
    ⟨_, rfl, rfl, rfl⟩
  have hops : ∀ op ∈ piecewise, op.OnlyRuns m.config.video := hconfig ▸ hops
  obtain ⟨-, hcore, hlatch, hexecuted, hfault, -, -⟩ := runSlice_sum_of_onlyRuns m piecewise hops
  -- ten, two for each of the ticks, and five
  have hsum : (piecewise.flatMap (Operation.budgets m.config.cyclesPerTick)).sum = 19 := by
    rw [hconfig]
    rfl
  rw [hsum] at hcore hlatch hexecuted hfault
  rw [hwhole] at hexecuted
  exact ⟨m, hm, hops, hcore, hlatch, hwhole, hexecuted, (hfault _).1 ⟨16, hwhole⟩⟩

end Machine

end VirtualPC
