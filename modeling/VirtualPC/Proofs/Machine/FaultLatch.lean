/-
VirtualPC/Proofs/Machine/FaultLatch.lean

A fault is reported once and remembered until the next boot.  The past of a machine is the
list of the operations done to it with what came of each; a boot is a reboot or a load that
succeeded, and `faultsSinceBoot past` are the faults that runs have ended with after the last
one.  The fault latch is a function of the past:

    faultsSinceBoot past = m.lastFault.toList

so that there is at most one such fault.  The equation holds of a new machine and every
transition preserves it (`LatchedBy.transition`), because a latched fault has halted the
processor and a halted processor runs nothing that could fault.  Writes from outside do not
disturb it, not even one that repairs the faulting byte.

Main result: `fault_latched_until_boot`.
-/
import VirtualPC.Proofs.Machine.Invariant

namespace VirtualPC

/-- Whether an operation has booted the processor, given what came of it.  A load that failed
has not. -/
def Operation.boots : Operation → Answer → Bool
  | .loadProgram _, .done | .loadSample _, .done | .reboot, .done => true
  | _, _ => false

/-- The fault that the run of an operation ended with. -/
def Answer.fault? (answer : Answer) : Option Fault := answer.exit?.bind RunExit.fault?

/-! ### The past since the last boot -/

/-- The part of the past after the last boot. -/
def sinceBoot (past : List (Operation × Answer)) : List (Operation × Answer) :=
  (past.reverse.takeWhile fun event => !event.1.boots event.2).reverse

/-- The faults that runs have ended with since the last boot, the earliest first. -/
def faultsSinceBoot (past : List (Operation × Answer)) : List Fault :=
  (sinceBoot past).filterMap fun event => event.2.fault?

section Past

variable {op : Operation} {answer : Answer}

theorem faultsSinceBoot_boot (past : List (Operation × Answer)) (h : op.boots answer = true) :
    faultsSinceBoot (past ++ [(op, answer)]) = [] := by
  simp [faultsSinceBoot, sinceBoot, h]

theorem faultsSinceBoot_snoc (past : List (Operation × Answer)) (h : op.boots answer = false) :
    faultsSinceBoot (past ++ [(op, answer)])
      = faultsSinceBoot past ++ answer.fault?.toList := by
  have hsnoc : sinceBoot (past ++ [(op, answer)]) = sinceBoot past ++ [(op, answer)] := by
    simp [sinceBoot, h]
  rw [faultsSinceBoot, hsnoc, List.filterMap_append]
  rcases hfault : answer.fault? with _ | cause <;> simp [faultsSinceBoot, hfault]

end Past

namespace Machine

variable {m after : Machine} {op : Operation} {answer : Answer} {report : TickReport}
  {past : List (Operation × Answer)}

/-! ### The latch -/

/-- The latch of a machine holds the fault since the last boot in its past, and that fault
has halted the processor. -/
structure LatchedBy (past : List (Operation × Answer)) (m : Machine) : Prop where
  faults : faultsSinceBoot past = m.lastFault.toList
  latched : m.execution.Latched

namespace LatchedBy

/-- A new machine has no past and no fault. -/
theorem of_create {c : Config} (h : create c = .ok m) : LatchedBy [] m := by
  obtain ⟨-, ram, -, rfl⟩ := create_eq_ok_iff.1 h
  exact ⟨rfl, fun hfault => nomatch hfault⟩

/-- A boot clears the latch. -/
theorem boot (hboots : op.boots answer = true) (hfault : after.lastFault = none) :
    LatchedBy (past ++ [(op, answer)]) after := by
  refine ⟨?_, ?_⟩
  · rw [faultsSinceBoot_boot past hboots, hfault]
    rfl
  · intro hsome
    change after.lastFault.isSome = true at hsome
    rw [hfault] at hsome
    cases hsome

/-- What does not boot adds the fault it ended with, if there is one. -/
theorem extend (h : LatchedBy past m) (hboots : op.boots answer = false)
    (hlatch : after.lastFault.toList = m.lastFault.toList ++ answer.fault?.toList)
    (hlatched : after.execution.Latched) : LatchedBy (past ++ [(op, answer)]) after := by
  refine ⟨?_, hlatched⟩
  rw [faultsSinceBoot_snoc past hboots, h.faults, hlatch]

/-- What neither boots nor ends with a fault leaves the latch alone. -/
theorem keep (h : LatchedBy past m) (hboots : op.boots answer = false)
    (hfault : answer.fault? = none) (hlatch : after.lastFault = m.lastFault)
    (hlatched : after.execution.Latched) : LatchedBy (past ++ [(op, answer)]) after := by
  refine h.extend hboots ?_ hlatched
  rw [hlatch, hfault]
  exact (List.append_nil _).symm

/-- **The latch follows the past** through every transition. -/
theorem transition (h : LatchedBy past m) (ht : Transition m op answer after) :
    LatchedBy (past ++ [(op, answer)]) after := by
  cases ht with
  | failed cause => exact h.keep (by cases op <;> rfl) rfl rfl h.latched
  | refused cause => exact h.keep (by cases op <;> rfl) rfl rfl h.latched
  | loaded hop hram =>
    obtain rfl | ⟨name, rfl⟩ := hop
    · exact boot rfl rfl
    · exact boot rfl rfl
  | rebooted => exact boot rfl rfl
  | ran budget =>
    rw [runSlice_eq]
    exact h.extend rfl (h.latched.lastFault_slice budget) (h.latched.slice budget)
  | stored hop hsize =>
    obtain rfl | ⟨address, byte, rfl⟩ | ⟨start, block, rfl⟩ := hop
    · exact h.keep rfl rfl rfl h.latched
    · exact h.keep rfl rfl rfl h.latched
    · exact h.keep rfl rfl rfl h.latched
  | rendered => exact h.keep rfl rfl rfl h.latched
  | ticked hmid =>
    -- presenting and sampling come after the slice and touch neither latch nor processor
    obtain ⟨ram, -, rfl⟩ := presented_eq_ok hmid
    rw [runSlice_eq]
    exact h.extend rfl (h.latched.lastFault_slice _) (h.latched.slice _)
  | drew d => exact h.keep rfl rfl rfl h.latched

end LatchedBy

/-! ### Ticks of a halted machine -/

/-- A tick of a halted machine only presents and samples. -/
theorem tick_of_halted (h : m.core.cpu.halted = true) (htick : m.tick = .ok (report, after)) :
    report.exit = .halted 0 ∧ after.core.cpu = m.core.cpu ∧ after.lastFault = m.lastFault ∧
    ∃ mid, m.presented = .ok mid ∧ after.core.ram = mid.core.ram := by
  obtain ⟨mid, hmid, rfl, rfl⟩ := tick_eq_ok_iff.1 htick
  rw [runSlice_of_halted _ h] at hmid ⊢
  obtain ⟨ram, -, rfl⟩ := presented_eq_ok hmid
  exact ⟨rfl, rfl, rfl, _, hmid, rfl⟩

/-- What a tick of a halted machine leaves in RAM: the surface, where the layout presents it,
and nothing else. -/
theorem ram_tick_of_halted (h : m.core.cpu.halted = true)
    (htick : m.tick = .ok (report, after)) :
    (m.config.video = .guest → after.core.ram = m.core.ram) ∧
    (m.config.video = .surface →
      ∃ presented, m.present = .ok presented ∧ after.core.ram = presented.core.ram) := by
  obtain ⟨-, -, -, mid, hmid, hram⟩ := tick_of_halted h htick
  refine ⟨?_, ?_⟩
  · intro hvideo
    rw [presented, hvideo] at hmid
    cases hmid
    exact hram
  · intro hvideo
    rw [presented, hvideo] at hmid
    exact ⟨mid, hmid, hram⟩

/-! ### Histories -/

/-- **A fault is reported once and stays latched until the next boot.**  Since the last boot
in the history of a machine, which a load that failed is not, at most one run has ended with
a fault, and the latch holds it, or nothing if there is none.  While it holds one the
processor is halted, and no run executes, faults or changes anything; a tick still presents
the surface where the layout says so. -/
theorem fault_latched_until_boot (c : Config) (m : Machine) (hm : create c = .ok m)
    (ops : List Operation) :
    let faults := faultsSinceBoot (m.history ops)
    let last := (m.applyAll ops).2
    faults.length ≤ 1 ∧ last.lastFault = faults.head? ∧
    (faults ≠ [] →
      last.core.cpu.halted = true ∧
      (∀ budget, last.runSlice budget = (.halted 0, last)) ∧
      (c.width * c.height < sizeLimit → ∃ report after, last.tick = .ok (report, after)) ∧
      ∀ report after, last.tick = .ok (report, after) →
        report.exit = .halted 0 ∧ after.core.cpu = last.core.cpu ∧
        after.lastFault = last.lastFault ∧
        (c.video = .guest → after.core.ram = last.core.ram) ∧
        (c.video = .surface →
          ∃ presented, last.present = .ok presented ∧ after.core.ram = presented.core.ram)) := by
  intro faults last
  have hlast : LatchedBy (m.history ops) last :=
    history_induction LatchedBy.transition (LatchedBy.of_create hm) ops
  have hconfig : last.config = c := by
    obtain ⟨-, ram, -, rfl⟩ := create_eq_ok_iff.1 hm
    exact config_applyAll _ ops
  -- all that is said of the faults is read off the latch, which holds at most one
  have hfaults : faults = last.lastFault.toList := hlast.faults
  refine ⟨?_, ?_, ?_⟩
  · rw [hfaults]
    exact Option.length_toList_le
  · rw [hfaults]
    cases last.lastFault <;> rfl
  · intro hsome
    have hhalted : last.core.cpu.halted = true := by
      refine hlast.latched ?_
      show last.lastFault.isSome = true
      rw [hfaults] at hsome
      rcases hlatch : last.lastFault with _ | cause
      · rw [hlatch] at hsome
        exact (hsome rfl).elim
      · rfl
    refine ⟨hhalted, fun budget => runSlice_of_halted budget hhalted, ?_, ?_⟩
    · intro hlimit
      exact ((Invariant.of_create hlimit hm).applyAll ops).exists_tick
    · intro report after htick
      obtain ⟨hexit, hcpu, hlatch, -⟩ := tick_of_halted hhalted htick
      have hram := ram_tick_of_halted hhalted htick
      rw [hconfig] at hram
      exact ⟨hexit, hcpu, hlatch, hram⟩

/-- A layout of sixteen bytes of RAM, the last four of which show the surface. -/
def tinyLayout : Config where
  ramSize := 16
  vramStart := 12
  width := 2
  height := 2
  cyclesPerTick := 4

/-- A program that faults at once, whose faulting byte is then repaired from outside, and a
load that fails. -/
def repaired : List Operation :=
  [.loadProgram [0xEE], .tick, .write 0 0, .runSlice 5, .loadProgram (List.replicate 17 0), .tick]

theorem repaired_stays_halted : ∃ m, create tinyLayout = .ok m ∧
    faultsSinceBoot (m.history repaired) = [.illegalOpcode 0xEE 0] ∧
    (m.applyAll repaired).2.lastFault = some (.illegalOpcode 0xEE 0) ∧
    ∀ budget, (m.applyAll repaired).2.runSlice budget
      = (.halted 0, (m.applyAll repaired).2) := by
  obtain ⟨m, hm, hfaults⟩ : ∃ m, create tinyLayout = .ok m ∧
      faultsSinceBoot (m.history repaired) = [.illegalOpcode 0xEE 0] := ⟨_, rfl, rfl⟩
  obtain ⟨-, hlatch, hafter⟩ := fault_latched_until_boot tinyLayout m hm repaired
  obtain ⟨-, hrun, -, -⟩ := hafter (by rw [hfaults]; exact List.cons_ne_nil _ _)
  rw [hfaults] at hlatch
  exact ⟨m, hm, hfaults, hlatch, hrun⟩

end Machine

end VirtualPC
