/-
VirtualPC/Machine.lean

The machine: processor, RAM, an off-screen surface and a display over the video window of
RAM, with a loader and a tick.  A fault halts the processor and is remembered until the next
boot, so it is reported once.

An operation that fails returns no machine: the caller keeps the one it had.  A load or a
present has changed nothing by the time it fails.  A tick has, for its slice is run before the
surface is presented: a machine changed in place would keep the slice, and here it is given up.
In a layout of fewer than 2^64 pixels the two cannot be told apart.  There the surface always
fits in the window, so no tick fails, and histories in place come to the same
(`Machine.Invariant.applyAll_eq_inPlaceAll`).
-/
import VirtualPC.Cpu
import VirtualPC.Machine.Config
import VirtualPC.Machine.Sample
import VirtualPC.Machine.Status
import VirtualPC.Text.Quoted
import VirtualPC.Video.Display

namespace VirtualPC

open Text

/-- Why an operation of the machine failed. -/
inductive MachineError where
  | config (cause : ConfigError)
  | programTooLarge (length loadAddress : Nat) (cause : MemoryError)
  | unknownProgram (name : String)
  | vramNotGuestAddressable (vramStart : Nat)
  | sampleDoesNotFit (sample : Sample) (vramLength : Nat)
  | memory (cause : MemoryError)
deriving DecidableEq, Repr

namespace MachineError

/-- The text shown for a failed operation. -/
def message : MachineError → String
  | config cause => "invalid machine configuration: " ++ cause.message
  | programTooLarge length loadAddress _ =>
    "program image (" ++ toString length ++ " bytes) does not fit at load address 0x"
      ++ hexWord (UInt16.ofNat loadAddress)
  | unknownProgram name => "unknown sample program " ++ quoted name
  | vramNotGuestAddressable vramStart =>
    "VRAM at 0x" ++ hexLower vramStart ++ " is not reachable by 16-bit guest addresses"
  | sampleDoesNotFit sample vramLength =>
    "sample program " ++ quoted sample.name ++ " draws " ++ toString sample.vramBytes
      ++ " bytes but the VRAM window holds " ++ toString vramLength
  | memory cause => cause.message

/-- The texts of the causes beneath a failed operation, the nearest first.  A plain memory
error speaks for itself. -/
def causes : MachineError → List String
  | config cause => [cause.message]
  | programTooLarge _ _ cause => [cause.message]
  | unknownProgram _ | vramNotGuestAddressable _ | sampleDoesNotFit _ _ | memory _ => []

end MachineError

/-- A machine with a fixed layout. -/
structure Machine where
  config : Config
  core : Core
  surface : Surface
  display : Display
  /-- The image loaded last. -/
  rom : List UInt8
  /-- The ticks since the machine was made. -/
  ticks : Nat
  /-- The fault that halted the processor, since the last boot. -/
  lastFault : Option Fault

/-- What a tick reports. -/
structure TickReport where
  exit : RunExit
  /-- Whether the display has changed since it was sampled before. -/
  frameChanged : Bool
deriving DecidableEq, Repr

namespace Machine

/-- A machine with zeroed RAM and no program, if the layout is valid. -/
def create (config : Config) : Except MachineError Machine :=
  match config.validate with
  | .error cause => .error (.config cause)
  | .ok () =>
    match Ram.zeroed config.ramSize with
    | .error cause => .error (.memory cause)
    | .ok ram => .ok {
        config := config
        core := ⟨Cpu.boot config.loadAddress, ram⟩
        surface := Surface.blank config.width config.height
        display := Display.blank config.width config.height config.vramStart Palette.standard
        rom := []
        ticks := 0
        lastFault := none }

/-- Starts over at the load address; RAM stays as it is. -/
def reboot (m : Machine) : Machine :=
  { m with core.cpu := Cpu.boot m.config.loadAddress, lastFault := none }

/-- Copies an image to the load address and boots into it. -/
def loadProgram (m : Machine) (image : List UInt8) : Except MachineError Machine :=
  match m.core.ram.writeBlock m.config.loadAddress image with
  | .error cause => .error (.programTooLarge image.length m.config.loadAddress cause)
  | .ok ram => .ok ({ m with core.ram := ram, rom := image } : Machine).reboot

/-- Loads a sample by name.  What it draws has to fit in the video window, and the window has
to start, and the drawn part to end, within reach of 16-bit addresses. -/
def loadSample (m : Machine) (name : String) : Except MachineError Machine :=
  match Sample.find? name with
  | none => .error (.unknownProgram name)
  | some sample =>
    let vramStart := m.config.vramStart
    if m.config.vramLength < sample.vramBytes then
      .error (.sampleDoesNotFit sample m.config.vramLength)
    else if guestSpace ≤ vramStart ∨ guestSpace < vramStart + sample.vramBytes then
      .error (.vramNotGuestAddressable vramStart)
    else
      m.loadProgram
        (sample.image (UInt16.ofNat m.config.loadAddress) (UInt16.ofNat vramStart))

/-- Runs at most `budget` instructions.  A fault halts the processor until the next boot. -/
def runSlice (m : Machine) (budget : Nat) : RunExit × Machine :=
  let ⟨config, core, surface, display, rom, ticks, lastFault⟩ := m
  match core.run budget with
  | (.fault executed cause, core) =>
    (.fault executed cause,
      ⟨config, { core with cpu := core.cpu.halt }, surface, display, rom, ticks, some cause⟩)
  | (exit, core) => (exit, ⟨config, core, surface, display, rom, ticks, lastFault⟩)

/-- Copies the surface into the video window. -/
def present (m : Machine) : Except MachineError Machine :=
  let ⟨config, ⟨cpu, ram⟩, surface, display, rom, ticks, lastFault⟩ := m
  match surface.present ram config.vramStart with
  | .error cause => .error (.memory cause)
  | .ok ram => .ok ⟨config, ⟨cpu, ram⟩, surface, display, rom, ticks, lastFault⟩

/-- Samples the video window and tells whether it has changed. -/
def render (m : Machine) : Bool × Machine :=
  let (changed, display) := m.display.sample m.core.ram
  (changed, { m with display := display })

/-- One tick: a slice of the layout's budget, then, if the layout says so, the surface is
presented, then the display is sampled.  If presenting fails, so does the tick, and what the
slice has done is given up with it. -/
def tick (m : Machine) : Except MachineError (TickReport × Machine) := do
  let (exit, m) := m.runSlice m.config.cyclesPerTick
  let m ← match m.config.video with
    | .surface => m.present
    | .guest => pure m
  let (changed, m) := m.render
  return (⟨exit, changed⟩, { m with ticks := m.ticks + 1 })

/-- Carries out a drawing command on the surface. -/
def draw (m : Machine) (d : Drawing) : Machine := { m with surface := m.surface.draw d }

/-- What the status screen shows for a program of the given name. -/
def status (m : Machine) (program : String) : Status where
  pc := m.core.cpu.pc
  acc := m.core.cpu.acc
  halted := m.core.cpu.halted
  ramSize := m.core.ram.size
  romLength := m.rom.length
  program := program
  ticks := m.ticks

/-- Draws the status screen on the surface. -/
def drawStatus (m : Machine) (program : String) : Machine :=
  { m with surface := m.surface.drawStatus (m.status program) }

end Machine

end VirtualPC
