/-
VirtualPC/Proofs/Command/Ticking.lean

The tick loop of the command line, for a machine whose video window belongs to the guest.  The
loop stops by itself at the first tick whose slice faulted or, without a status screen, halted
(`endsRun`); after such a tick the processor is halted and would execute nothing more.  So what
the loop has executed, the fault it ended with and the core it leaves are those of one slice of
the whole budget, wherever it stopped.

The status screen is drawn between ticks, but on the surface alone, and nothing here presents
the surface.  It is carried through the ticks as a parameter: `{ m with surface := s }` ticks as
`m` does, for every `s` (`tick_of_surface`).

Main result: `run_of_guest`, by induction on the number of ticks.
-/
import VirtualPC.Command.Emulation
import VirtualPC.Proofs.Machine.Slicing

namespace VirtualPC

open Execution

namespace Machine

variable {m after : Machine} {report : TickReport}

/-! ### Ticks one after another -/

/-- A machine after ticks. -/
def afterTicks (m : Machine) (count : Nat) : Machine :=
  (m.applyAll (List.replicate count .tick)).2

/-- How the slices of ticks ended, in order. -/
def tickExits (m : Machine) (count : Nat) : List RunExit :=
  (m.applyAll (List.replicate count .tick)).1.filterMap Answer.exit?

theorem afterTicks_succ (h : m.tick = .ok (report, after)) (count : Nat) :
    m.afterTicks (count + 1) = after.afterTicks count := by
  show ((m.apply .tick).2.applyAll _).2 = _
  simp only [apply, h]
  rfl

theorem tickExits_succ (h : m.tick = .ok (report, after)) (count : Nat) :
    m.tickExits (count + 1) = report.exit :: after.tickExits count := by
  show List.filterMap Answer.exit? ((m.apply .tick).1 :: ((m.apply .tick).2.applyAll _).1) = _
  simp only [apply, h]
  rfl

/-- What a tick does where the window belongs to the guest. -/
theorem of_tick_guest (hvideo : m.config.video = .guest) (h : m.tick = .ok (report, after)) :
    report.exit = (m.execution.slice m.config.cyclesPerTick).1 ∧ after.config = m.config ∧
      after.execution = (m.execution.slice m.config.cyclesPerTick).2 := by
  obtain ⟨report', after', htick, hafter⟩ := tick_guest hvideo
  rw [h] at htick
  cases htick
  exact hafter

/-- Every tick is counted. -/
theorem ticks_of_tick (h : m.tick = .ok (report, after)) : after.ticks = m.ticks + 1 := by
  obtain ⟨mid, hmid, -, rfl⟩ := tick_eq_ok_iff.1 h
  obtain ⟨ram, -, rfl⟩ := presented_eq_ok hmid
  rw [runSlice_eq]

theorem ticks_afterTicks (hvideo : m.config.video = .guest) (count : Nat) :
    (m.afterTicks count).ticks = m.ticks + count := by
  induction count generalizing m with
  | zero => rfl
  | succ count ih =>
    obtain ⟨report, after, htick, -, hconfig, -⟩ := tick_guest hvideo
    rw [afterTicks_succ htick, ih (hconfig ▸ hvideo), ticks_of_tick htick]
    omega

/-! ### Ticks under another surface -/

theorem runSlice_of_surface (m : Machine) (budget : Nat) (s : Surface) :
    ({ m with surface := s } : Machine).runSlice budget
      = ((m.runSlice budget).1, { (m.runSlice budget).2 with surface := s }) := by
  rw [runSlice_eq, runSlice_eq]
  rfl

/-- Where the window belongs to the guest, a tick goes by whatever is on the surface. -/
theorem tick_of_surface (hvideo : m.config.video = .guest) (h : m.tick = .ok (report, after))
    (s : Surface) :
    ({ m with surface := s } : Machine).tick = .ok (report, { after with surface := s }) := by
  obtain ⟨mid, hmid, rfl, rfl⟩ := tick_eq_ok_iff.1 h
  have hconfig : (m.runSlice m.config.cyclesPerTick).2.config = m.config := by rw [runSlice_eq]
  rw [presented, hconfig, hvideo] at hmid
  cases hmid
  refine tick_eq_ok_iff.2 ⟨{ (m.runSlice m.config.cyclesPerTick).2 with surface := s }, ?_, ?_, rfl⟩
  · rw [runSlice_of_surface m _ s, presented, hconfig, hvideo]
  · rw [runSlice_of_surface m _ s]
    rfl

end Machine

namespace Command.Emulation

variable {m after : Machine} {report : TickReport} {screen : Option String}

/-! ### One tick of the loop -/

/-- Whether the loop stops after a tick whose slice ended so, with the status screen or without:
at a fault always, and at a halt unless the screen is to go on showing it. -/
def endsRun (onScreen : Bool) : RunExit → Bool
  | .completed _ => false
  | .halted _ => !onScreen
  | .fault _ _ => true

/-- The number of the first tick that stops the loop, or of the last if none does. -/
def lastTick (onScreen : Bool) (m : Machine) (count : Nat) : Nat :=
  match (m.tickExits count).findIdx? (endsRun onScreen) with
  | some i => i + 1
  | none => count

theorem lastTick_succ (onScreen : Bool) (h : m.tick = .ok (report, after)) (count : Nat) :
    lastTick onScreen m (count + 1)
      = if endsRun onScreen report.exit then 1 else lastTick onScreen after count + 1 := by
  rw [lastTick, Machine.tickExits_succ h, List.findIdx?_cons]
  rcases endsRun onScreen report.exit with _ | _
  · rw [lastTick]
    rcases (after.tickExits count).findIdx? (endsRun onScreen) with _ | i <;> rfl
  · rfl

theorem afterTicks_lastTick_succ (onScreen : Bool) (h : m.tick = .ok (report, after))
    (count : Nat) :
    m.afterTicks (lastTick onScreen m (count + 1))
      = if endsRun onScreen report.exit then after
        else after.afterTicks (lastTick onScreen after count) := by
  rw [lastTick_succ onScreen h]
  split
  · exact Machine.afterTicks_succ h 0
  · exact Machine.afterTicks_succ h _

/-- A tick that does not stop the loop has not faulted. -/
theorem fault?_of_endsRun {onScreen : Bool} {exit : RunExit} (h : endsRun onScreen exit = false) :
    exit.fault? = none := by
  cases exit with
  | completed n => rfl
  | halted n => rfl
  | fault n cause => cases h

/-- Getting ready for a tick touches the surface alone. -/
theorem prepare_eq (screen : Option String) (m : Machine) :
    ∃ s, prepare screen m = { m with surface := s } := by
  cases screen with
  | none => exact ⟨m.surface, rfl⟩
  | some program => exact ⟨_, rfl⟩

/-- The loop takes a tick, and goes on from there unless the tick stops it. -/
theorem run_succ (h : (prepare screen m).tick = .ok (report, after)) (count executed : Nat)
    (fault : Option Fault) :
    let next : Emulation :=
      ⟨after, min (executed + report.exit.executed) (sizeLimit - 1), report.exit.fault?⟩
    run screen (count + 1) ⟨m, executed, fault⟩
      = if endsRun screen.isSome report.exit then .ok next else run screen count next := by
  intro next
  obtain ⟨exit, changed⟩ := report
  rw [run, h]
  cases exit with
  | completed n => rfl
  | halted n => cases screen <;> rfl
  | fault n cause => rfl

/-- One slice for `count + 1` ticks is the slice of the first tick, and then one for the others. -/
theorem slice_ticks_succ (hvideo : m.config.video = .guest) (h : m.tick = .ok (report, after))
    (count : Nat) :
    let whole := m.execution.slice ((count + 1) * m.config.cyclesPerTick)
    let rest := after.execution.slice (count * m.config.cyclesPerTick)
    whole.2 = rest.2 ∧ whole.1.executed = report.exit.executed + rest.1.executed ∧
      whole.1.fault? = report.exit.fault?.or rest.1.fault? := by
  intro whole rest
  obtain ⟨hexit, -, hexecution⟩ := Machine.of_tick_guest hvideo h
  have hwhole : whole
      = m.execution.slice (m.config.cyclesPerTick + count * m.config.cyclesPerTick) := by
    rw [Nat.add_comm, ← Nat.succ_mul]
  have hrest : rest = (m.execution.slice m.config.cyclesPerTick).2.slice
      (count * m.config.cyclesPerTick) := by
    rw [← hexecution]
  rw [hwhole, hrest, hexit]
  refine ⟨?_, executed_slice_add m.execution _ _, fault?_slice_add m.execution _ _⟩
  rw [slice_add]

/-- A tick that stops the loop has left a halted processor. -/
theorem halted_of_endsRun {onScreen : Bool} (hvideo : m.config.video = .guest)
    (h : m.tick = .ok (report, after)) (hends : endsRun onScreen report.exit = true) :
    after.execution.core.cpu.halted = true := by
  obtain ⟨hexit, -, hexecution⟩ := Machine.of_tick_guest hvideo h
  rw [hexecution]
  refine halted_of_slice ?_
  rw [← hexit]
  rcases hexit : report.exit with n | n | ⟨n, cause⟩
  · rw [hexit] at hends
    cases hends
  · rfl
  · rfl

/-! ### The loop -/

/-- **The ticks of a loop come to one slice of their budgets.**  The loop ends at its last tick,
and there it has executed as much, ends with the same fault and leaves the same core. -/
theorem run_of_guest (screen : Option String) (hvideo : m.config.video = .guest)
    (count executed : Nat)
    (hbudget : executed + count * m.config.cyclesPerTick < sizeLimit) (s : Surface) :
    let whole := m.execution.slice (count * m.config.cyclesPerTick)
    let last := m.afterTicks (lastTick screen.isSome m count)
    last.core = whole.2.core ∧
    ∃ drawn, run screen count ⟨{ m with surface := s }, executed, none⟩
      = .ok ⟨{ last with surface := drawn }, executed + whole.1.executed, whole.1.fault?⟩ := by
  induction count generalizing m executed s with
  | zero =>
    intro whole last
    have hwhole : whole = (if m.core.cpu.halted then .halted 0 else .completed 0, m.execution) := by
      show m.execution.slice (0 * m.config.cyclesPerTick) = _
      rw [Nat.zero_mul, slice_zero]
      rfl
    have hidle : whole.1.executed = 0 ∧ whole.1.fault? = none := by
      rw [hwhole]
      rcases m.core.cpu.halted with _ | _ <;> exact ⟨rfl, rfl⟩
    refine ⟨by rw [hwhole]; rfl, s, ?_⟩
    rw [hidle.1, hidle.2]
    rfl
  | succ count ih =>
    intro whole last
    obtain ⟨report, after, htick, -⟩ := Machine.tick_guest hvideo
    obtain ⟨hexit, hconfig, -⟩ := Machine.of_tick_guest hvideo htick
    obtain ⟨hcore, hexecuted, hfault⟩ := slice_ticks_succ hvideo htick count
    obtain ⟨drawn, hprepare⟩ := prepare_eq screen { m with surface := s }
    have hready : (prepare screen { m with surface := s }).tick
        = .ok (report, { after with surface := drawn }) := by
      rw [hprepare]
      exact Machine.tick_of_surface hvideo htick drawn
    have hsum : executed + (m.config.cyclesPerTick + count * m.config.cyclesPerTick)
        < sizeLimit := by
      rwa [Nat.succ_mul, Nat.add_comm _ m.config.cyclesPerTick] at hbudget
    have hle : report.exit.executed ≤ m.config.cyclesPerTick := by
      rw [hexit]
      exact executed_slice_le m.execution _
    -- the count stays below its cap, as the budget does
    have hcap : min (executed + report.exit.executed) (sizeLimit - 1)
        = executed + report.exit.executed := by omega
    have hlast : last = if endsRun screen.isSome report.exit then after
        else after.afterTicks (lastTick screen.isSome after count) :=
      afterTicks_lastTick_succ screen.isSome htick count
    rw [run_succ hready, hcap, hlast, hcore, hexecuted, hfault]
    rcases hends : endsRun screen.isSome report.exit with _ | _
    · have hcycles : after.config.cyclesPerTick = m.config.cyclesPerTick :=
        congrArg Config.cyclesPerTick hconfig
      have hrest := ih (hconfig ▸ hvideo) (executed + report.exit.executed)
        (by rw [hcycles]; omega) drawn
      rw [hcycles] at hrest
      rw [fault?_of_endsRun hends, ← Nat.add_assoc]
      exact hrest
    -- nothing is left to run after a tick that stops the loop
    · have hidle : report.exit.fault?.or (RunExit.halted 0).fault? = report.exit.fault? :=
        Option.or_none
      rw [slice_of_halted _ (halted_of_endsRun hvideo htick hends), hidle]
      exact ⟨rfl, drawn, rfl⟩

end Command.Emulation

end VirtualPC
