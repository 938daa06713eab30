/-
VirtualPC/Cpu.lean

The processor: an 8-bit accumulator, a 16-bit program counter and a halt flag, working on
RAM.  A step fetches an instruction byte by byte at the program counter, which goes round at
64 KiB, and carries it out; a run repeats steps within a budget.  A failing step leaves
behind what it had fetched so far: the program counter has passed the bytes already read,
and nothing else has changed.
-/
import VirtualPC.Instruction.Decode
import VirtualPC.Memory

namespace VirtualPC

open Text

/-- The registers. -/
structure Cpu where
  /-- The address of the next instruction byte. -/
  pc : UInt16
  /-- The accumulator. -/
  acc : UInt8
  halted : Bool
deriving DecidableEq, Repr

/-- Registers that start at an address, taken modulo 64 KiB, with a cleared accumulator. -/
def Cpu.boot (address : Nat) : Cpu := ⟨UInt16.ofNat address, 0, false⟩

/-- The registers with the halt flag set. -/
def Cpu.halt (cpu : Cpu) : Cpu := { cpu with halted := true }

/-- Why a step failed; `pc` is the address of the instruction's first byte. -/
inductive Fault where
  /-- The fetched byte is no assigned opcode. -/
  | illegalOpcode (opcode : UInt8) (pc : UInt16)
  /-- A fetch, load or store outside RAM. -/
  | memory (pc : UInt16) (cause : MemoryError)
deriving DecidableEq, Repr

namespace Fault

/-- The address of the instruction that failed. -/
def pc : Fault → UInt16
  | illegalOpcode _ pc => pc
  | memory pc _ => pc

/-- The text shown for a fault. -/
def message : Fault → String
  | illegalOpcode opcode pc =>
    "unknown opcode 0x" ++ hexByte opcode ++ " at PC=0x" ++ hexWord pc
  | memory pc cause =>
    "memory fault in instruction at PC=0x" ++ hexWord pc ++ ": " ++ cause.message

end Fault

/-- What a successful step did. -/
inductive Outcome where
  /-- The processor was halted already: nothing happened. -/
  | idle
  | executed (instruction : Instruction)
deriving DecidableEq, Repr

/-- How a run ended, and how many instructions it executed. -/
inductive RunExit where
  /-- The budget is used up and the processor still runs. -/
  | completed (executed : Nat)
  | halted (executed : Nat)
  /-- The step after the executed ones failed. -/
  | fault (executed : Nat) (cause : Fault)
deriving DecidableEq, Repr

/-- The number of instructions a run executed. -/
def RunExit.executed : RunExit → Nat
  | completed n | halted n | fault n _ => n

/-- The processor together with the RAM it works on. -/
structure Core where
  cpu : Cpu
  ram : Ram

namespace Core

/-- Reads the byte at the program counter and moves the counter past it. -/
@[inline] def fetch : EStateM MemoryError Core UInt8 := fun core =>
  match core.ram.read core.cpu.pc.toNat with
  | .ok byte => .ok byte { core with cpu.pc := core.cpu.pc + 1 }
  | .error cause => .error cause core

/-- Reads the instruction at the program counter. -/
def fetchInstruction : EStateM MemoryError Core Instruction := do
  Instruction.decodeWith (← fetch) fetch

/-- Carries out a fetched instruction that started at `pc`. -/
def execute (pc : UInt16) (i : Instruction) : EStateM Fault Core Outcome := fun core =>
  match i with
  | .nop => .ok (.executed i) core
  | .loadImmediate value => .ok (.executed i) { core with cpu.acc := value }
  | .store address =>
    match core.ram.write address.toNat core.cpu.acc with
    | .ok ram => .ok (.executed i) { core with ram := ram }
    | .error cause => .error (.memory pc cause) core
  | .load address =>
    match core.ram.read address.toNat with
    | .ok byte => .ok (.executed i) { core with cpu.acc := byte }
    | .error cause => .error (.memory pc cause) core
  | .addImmediate value => .ok (.executed i) { core with cpu.acc := core.cpu.acc + value }
  | .subImmediate value => .ok (.executed i) { core with cpu.acc := core.cpu.acc - value }
  | .jump target => .ok (.executed i) { core with cpu.pc := target }
  | .jumpIfZero target =>
    if core.cpu.acc = 0 then .ok (.executed i) { core with cpu.pc := target }
    else .ok (.executed i) core
  | .halt => .ok (.executed i) { core with cpu.halted := true }
  | .unknown byte => .error (.illegalOpcode byte pc) core

/-- One step: nothing when halted, else one instruction. -/
def step : EStateM Fault Core Outcome := fun core =>
  if core.cpu.halted then .ok .idle core
  else
    let pc := core.cpu.pc
    match fetchInstruction core with
    | .ok i core => execute pc i core
    | .error cause core => .error (.memory pc cause) core

/-- Runs at most `budget` further instructions after the `executed` ones. -/
def runFrom (executed : Nat) : (budget : Nat) → Core → RunExit × Core
  | 0, core => (if core.cpu.halted then .halted executed else .completed executed, core)
  | budget + 1, core =>
    if core.cpu.halted then (.halted executed, core)
    else
      match step core with
      | .ok _ core => runFrom (executed + 1) budget core
      | .error cause core => (.fault executed cause, core)

/-- Runs at most `budget` instructions, up to a halt or a fault. -/
def run (budget : Nat) (core : Core) : RunExit × Core := runFrom 0 budget core

end Core

end VirtualPC
