/-
VirtualPC/Machine/Operation.lean

Histories of a machine.  An operation is anything a host does to a machine: loading,
running, presenting, and also writing to its RAM or drawing on its surface from outside.
`Machine.apply` carries out one operation and tells what came of it; what fails leaves the
machine as it was.  That is so of a tick as well, whose slice has been run by the time it turns
out that the surface does not fit: the slice is taken back.
-/
import VirtualPC.Machine

namespace VirtualPC

/-- Something a host does to a machine. -/
inductive Operation where
  | loadProgram (image : List UInt8)
  | loadSample (name : String)
  | reboot
  | runSlice (budget : Nat)
  | present
  | render
  | tick
  /-- One byte written to RAM from outside. -/
  | write (address : Nat) (byte : UInt8)
  /-- A block written to RAM from outside. -/
  | writeBlock (start : Nat) (block : List UInt8)
  | draw (d : Drawing)
deriving DecidableEq, Repr

/-- What came of an operation. -/
inductive Answer where
  | done
  | failed (cause : MachineError)
  /-- A write from outside that RAM refused. -/
  | refused (cause : MemoryError)
  | ran (exit : RunExit)
  | ticked (report : TickReport)
  /-- Whether a sample changed the display. -/
  | rendered (changed : Bool)
deriving DecidableEq, Repr

namespace Machine

/-- The machine after an attempt, or as it was. -/
def attempt (m : Machine) : Except MachineError Machine → Answer × Machine
  | .ok after => (.done, after)
  | .error cause => (.failed cause, m)

/-- The machine after an attempt to change its RAM, or as it was. -/
def attemptWrite (m : Machine) : Except MemoryError Ram → Answer × Machine
  | .ok ram => (.done, { m with core.ram := ram })
  | .error cause => (.refused cause, m)

/-- Carries out an operation. -/
def apply (m : Machine) : Operation → Answer × Machine
  | .loadProgram image => m.attempt (m.loadProgram image)
  | .loadSample name => m.attempt (m.loadSample name)
  | .reboot => (.done, m.reboot)
  | .runSlice budget => let (exit, m) := m.runSlice budget; (.ran exit, m)
  | .present => m.attempt m.present
  | .render => let (changed, m) := m.render; (.rendered changed, m)
  | .tick =>
    match m.tick with
    | .ok (report, after) => (.ticked report, after)
    | .error cause => (.failed cause, m)
  | .write address byte => m.attemptWrite (m.core.ram.write address byte)
  | .writeBlock start block => m.attemptWrite (m.core.ram.writeBlock start block)
  | .draw d => (.done, m.draw d)

/-- Carries out operations in order. -/
def applyAll (m : Machine) : List Operation → List Answer × Machine
  | [] => ([], m)
  | op :: rest =>
    let (answer, m) := m.apply op
    let (answers, m) := m.applyAll rest
    (answer :: answers, m)

end Machine

end VirtualPC
