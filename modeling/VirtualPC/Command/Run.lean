/-
VirtualPC/Command/Run.lean

The command itself: list the samples, install them, or run a program.  It works on any file
store, so that a run can be had as a value (on a `FileTree`) as well as on real files.
-/
import VirtualPC.Command.Emulation
import VirtualPC.Command.Frame
import VirtualPC.Command.Report
import VirtualPC.Files.Install
import VirtualPC.Listing
import VirtualPC.Memory.Dump

namespace VirtualPC.Command

open Text

/-- The state of a command: the lines it has printed so far. -/
abbrev Session (m : Type → Type) := ExceptT Failure (StateT (Array String) m)

variable {m : Type → Type} [Monad m] [FileStore m]

/-- Prints lines. -/
def print (lines : List String) : Session m Unit :=
  modify fun printed : Array String => printed ++ lines.toArray

/-- The value of a result; an error fails with the message, above the causes it has. -/
def orFail {ε α : Type} (message : String) (causes : ε → List String) :
    Except ε α → Session m α
  | .ok a => return a
  | .error e => throw ⟨message, causes e⟩

/-- Does something with files; an error fails with the message, above its own. -/
def onFiles {ε α : Type} (message : String) (text : ε → String) (x : ExceptT ε m α) :
    Session m α := do
  orFail message (fun e => [text e]) (← ExceptT.lift (StateT.lift x.run))

/-- The texts of an error of the machine and of the causes beneath it. -/
def machineCauses (e : MachineError) : List String := e.message :: e.causes

/-- A name with blanks after it, up to 14 characters in all. -/
def padName (name : String) : String :=
  name ++ String.ofList (List.replicate (14 - name.length) ' ')

/-- Lists the samples. -/
def listPrograms : Session m Unit :=
  print (Sample.all.map fun s => padName s.name ++ s.description)

/-- Installs the samples in a directory. -/
def installSamples (dir : String) : Session m Unit := do
  let written ← onFiles ("failed to install samples into " ++ dir) FileError.message
    (Sample.install dir)
  print (written.map ("wrote " ++ ·))
  print [toString written.length ++ " of " ++ toString Sample.all.length
    ++ " samples installed"]

/-- Loads the image in a file, and gives the name of the file. -/
def loadRom (machine : Machine) (name : String) : Session m (Machine × String) := do
  let image ← onFiles ("failed to read ROM: " ++ name) FileError.message
    (FileStore.readFile name)
  if image.isEmpty then throw ⟨"ROM image is empty: " ++ name, []⟩
  let machine ← orFail ("failed to load ROM " ++ name) machineCauses
    (machine.loadProgram image)
  return (machine, (Path.fileName? name).getD name)

/-- Loads a sample, and gives its name as it was asked for. -/
def loadSample (machine : Machine) (name : String) : Session m (Machine × String) := do
  let machine ← orFail ("failed to load sample program " ++ quoted name) machineCauses
    (machine.loadSample name)
  return (machine, name)

/-- The bytes on a line of a dump. -/
def dumpWidth : Nat := 16

/-- Runs a program. -/
def emulate (o : Options) : Session m Unit := do
  let machine ← orFail "failed to create machine" machineCauses (Machine.create o.config)
  let (machine, name) ← match o.rom with
    | some file => loadRom machine file
    | none => loadSample machine (o.program.getD "demo")
  if let some count := o.disasm then
    print (Listing.window machine.rom (UInt16.ofNat machine.config.loadAddress) 0 count)
  let screen := if o.statusScreen then some name else none
  let e ← orFail "tick failed" machineCauses
    (Emulation.run screen (o.ticks.getD 60) (Emulation.start machine))
  print [e.summary]
  if let some address := o.dumpRam then
    print (e.machine.core.ram.dump address (o.dumpLines.getD 8) dumpWidth)
  if let some file := o.framePng then
    onFiles ("failed to write PNG: " ++ file) SaveError.message
      (savePicture file e.machine.display.picture)
  if let some cause := e.fault then
    throw ⟨"guest fault: " ++ cause.message, []⟩

/-- Does what the options ask for. -/
def perform (o : Options) : Session m Unit :=
  if o.listPrograms then listPrograms
  else
    match o.installSamples with
    | some dir => installSamples dir
    | none => emulate o

/-- Runs a command line. -/
def run (words : List String) : m Report := do
  match Options.ofWords words with
  | .error .helpWanted => return .help
  | .error cause => return .refused cause
  | .ok o =>
    let (result, printed) ← (perform o).run #[]
    match result with
    | .ok () => return .finished printed.toList none
    | .error failure => return .finished printed.toList (some failure)

end VirtualPC.Command
