/-
VirtualPC/Machine/Status.lean

The status screen: a title bar with the uptime and a panel with the registers and the sizes
of RAM and program.  The title gives way to the uptime on a narrow surface.
-/
import VirtualPC.Text.Hex
import VirtualPC.Video.Palette
import VirtualPC.Video.Surface

namespace VirtualPC

open Text

/-- What the status screen shows. -/
structure Status where
  pc : UInt16
  acc : UInt8
  halted : Bool
  ramSize : Nat
  romLength : Nat
  program : String
  ticks : Nat
deriving DecidableEq, Repr

namespace Status

/-- The ticks that make a second of uptime. -/
def ticksPerSecond : Nat := 60

/-- The uptime in whole seconds. -/
def uptime (s : Status) : String := "UP " ++ toString (s.ticks / ticksPerSecond) ++ "S"

/-- The lines of the register panel, top to bottom. -/
def panelLines (s : Status) : List String :=
  [ "CPU PC " ++ hexWord s.pc,
    "CPU A  " ++ hexByte s.acc,
    "STATE  " ++ (if s.halted then "HALT" else "RUN"),
    "RAM    " ++ toString s.ramSize ++ " B",
    "ROM    " ++ toString s.romLength ++ " B",
    "PROG   " ++ s.program ]

/-- The title of the screen. -/
def title : String := "VOS CORE"

/-- The left edge of the uptime on a surface `width` pixels wide: three pixels from the right
edge, unless that leaves less than three on the left. -/
def uptimeLeft (s : Status) (width : Int) : Int := max (width - textWidth s.uptime - 3) 3

/-- The commands that draw the title bar of a surface `width` pixels wide. -/
def titleBar (s : Status) (width : Int) : List Drawing :=
  [ .fillRect 0 0 width 10 Palette.panel,
    .drawRect 0 0 width 10 Palette.windowBorder ] ++
  (if (textWidth title : Int) < s.uptimeLeft width - 9 then
    [.drawText 3 2 title Palette.text] else []) ++
  [.drawText (s.uptimeLeft width) 2 s.uptime Palette.text]

/-- The commands that draw the register panel of a surface of the given size. -/
def panel (s : Status) (width height : Int) : List Drawing :=
  [ .fillRect 8 16 (width - 16) (height - 24) Palette.window,
    .drawRect 8 16 (width - 16) (height - 24) Palette.windowBorder,
    .fillRect 8 16 (width - 16) 10 Palette.accent,
    .drawText 11 18 "PRIMARY OS" Palette.text ] ++
  s.panelLines.zipIdx.map fun (line, row) =>
    .drawText 14 (32 + 8 * row) line Palette.text

/-- The commands of the whole screen on a surface of the given size. -/
def drawings (s : Status) (width height : Int) : List Drawing :=
  .clear Palette.background :: (s.titleBar width ++ s.panel width height)

end Status

/-- Draws the status screen.  Its layout takes the size of the surface as signed 32-bit
numbers. -/
def Surface.drawStatus (surface : Surface) (s : Status) : Surface :=
  surface.drawAll
    (s.drawings (Int.bmod surface.width 0x100000000) (Int.bmod surface.height 0x100000000))

end VirtualPC
