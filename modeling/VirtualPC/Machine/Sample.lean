/-
VirtualPC/Machine/Sample.lean

The built-in sample programs.  A sample is assembled for a load address and a video window.
It can be loaded where RAM has room for its image and the window, which has to start within
reach of 16-bit addresses, has room within that reach for what the sample draws.  Whether it
runs there is another matter: the window may lie over the image, the image may go across the
end of the 16-bit addresses, and there may be no RAM where the sample keeps its count
(`Machine.accepted_samples_fault`).
-/
import VirtualPC.Assembler

namespace VirtualPC

/-- A built-in program. -/
inductive Sample where
  | demo
  | counter
  | vramFill
  | pulse
  | checkerboard
deriving DecidableEq, Repr

namespace Sample

/-- The samples, in the order in which they are listed and installed. -/
def all : List Sample := [demo, counter, vramFill, pulse, checkerboard]

/-- The name a sample is loaded by. -/
def name : Sample → String
  | demo => "demo"
  | counter => "counter"
  | vramFill => "vram-fill"
  | pulse => "pulse"
  | checkerboard => "checkerboard"

/-- What a sample does, in one line. -/
def description : Sample → String
  | demo => "busy loop incrementing the accumulator"
  | counter => "counts upward, storing the count at 0x9000"
  | vramFill => "paints the first 256 VRAM bytes with 0xE0 and halts"
  | pulse => "cycles the first VRAM pixel forever"
  | checkerboard => "alternates 1/0 across the first 512 VRAM bytes and halts"

/-- The number of bytes a sample draws, from the start of the window on. -/
def vramBytes : Sample → Nat
  | demo | counter => 0
  | vramFill => 256
  | pulse => 1
  | checkerboard => 512

/-- The file a sample is installed as. -/
def fileName (s : Sample) : String := s.name ++ ".bin"

/-- Where `counter` keeps its count. -/
def counterAddress : UInt16 := 0x9000

/-- A program that stores `value i` at `vram + i` for each `i` below `count`, then halts. -/
def painter (base vram : UInt16) (count : Nat) (value : Nat → UInt8) : Assembler :=
  ((List.range count).foldl
    (fun a i => (a.emit (.loadImmediate (value i))).emit (.store (vram + UInt16.ofNat i)))
    (Assembler.start base)).emit .halt

/-- A sample assembled for a load address and the start of a window. -/
def assemble (base vram : UInt16) : Sample → Assembler
  | demo =>
    let a := (Assembler.start base).emit (.loadImmediate 0)
    let top := a.here
    a.emitAll [.addImmediate 1, .jump top]
  | counter =>
    let a := (Assembler.start base).emit (.loadImmediate 0)
    let top := a.here
    a.emitAll [.addImmediate 1, .store counterAddress, .jump top]
  | vramFill => painter base vram 256 fun _ => 0xE0
  | pulse =>
    (Assembler.start base).emitAll
      [.load vram, .addImmediate 0x11, .store vram, .jump base]
  | checkerboard => painter base vram 512 fun i => if i % 2 = 0 then 1 else 0

/-- The image of a sample. -/
def image (s : Sample) (base vram : UInt16) : List UInt8 := (s.assemble base vram).image

/-- A name without one trailing `.bin`. -/
def stem (name : String) : String :=
  let ending := ".bin".toList
  if ending.isSuffixOf name.toList then
    String.ofList (name.toList.take (name.toList.length - ending.length))
  else name

/-- The sample of a name, which may end in `.bin`. -/
def find? (name : String) : Option Sample := all.find? fun s => s.name = stem name

end Sample

end VirtualPC
