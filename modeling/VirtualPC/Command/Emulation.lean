/-
VirtualPC/Command/Emulation.lean

A run of the machine from the command line: ticks up to a number, ending early at a fault or,
unless the status screen is shown, once the processor is halted.
-/
import VirtualPC.Machine

namespace VirtualPC.Command

open Text

/-- A machine after some ticks. -/
structure Emulation where
  machine : Machine
  /-- The instructions executed in all, capped at the largest count. -/
  executed : Nat
  /-- The fault of the last tick. -/
  fault : Option Fault

namespace Emulation

/-- A machine before its first tick. -/
def start (m : Machine) : Emulation := ⟨m, 0, none⟩

/-- The machine as it goes into a tick: with `screen`, the status screen is drawn first, for
a program of that name. -/
def prepare (screen : Option String) (m : Machine) : Machine :=
  match screen with
  | some program => m.drawStatus program
  | none => m

/-- Runs at most `count` ticks. -/
def run (screen : Option String) : (count : Nat) → Emulation → Except MachineError Emulation
  | 0, e => .ok e
  | count + 1, ⟨machine, executed, _⟩ => do
    let (report, machine) ← (prepare screen machine).tick
    let executed := min (executed + report.exit.executed) (sizeLimit - 1)
    match report.exit with
    | .completed _ => run screen count ⟨machine, executed, none⟩
    | .halted _ =>
      if screen.isSome then run screen count ⟨machine, executed, none⟩
      else return ⟨machine, executed, none⟩
    | .fault _ cause => return ⟨machine, executed, some cause⟩

/-- The summary of a run: ticks, instructions and registers. -/
def summary (e : Emulation) : String :=
  let cpu := e.machine.core.cpu
  "ticks=" ++ toString e.machine.ticks ++ " executed=" ++ toString e.executed ++ " pc=0x"
    ++ hexWord cpu.pc ++ " a=0x" ++ hexByte cpu.acc ++ " halted="
    ++ (if cpu.halted then "true" else "false")

end Emulation

end VirtualPC.Command
