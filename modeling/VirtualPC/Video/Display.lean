/-
VirtualPC/Video/Display.lean

The display samples a window of guest RAM, one byte per pixel, and shows the palette colour
of each byte.  It remembers the bytes it last sampled, so that only cells whose byte has
changed are recoloured, and a sample tells whether there was any.
-/
import VirtualPC.Memory
import VirtualPC.Video.Palette

namespace VirtualPC

/-- A display cell: the byte last sampled and the colour shown. -/
structure DisplayCell where
  index : UInt8
  colour : Rgb
deriving DecidableEq, Repr

/-- The cell after a byte is sampled; an unchanged byte leaves it alone. -/
def DisplayCell.refresh (palette : Palette) (cell : DisplayCell) (byte : UInt8) : DisplayCell :=
  if cell.index = byte then cell else ⟨byte, palette.colour byte⟩

/-- A display of `width` by `height` cells over the window of RAM that starts at
`windowStart`. -/
structure Display where
  width : Nat
  height : Nat
  windowStart : Nat
  palette : Palette
  cells : List DisplayCell

namespace Display

/-- A display that has sampled zeros only. -/
def blank (width height windowStart : Nat) (palette : Palette) : Display where
  width := width
  height := height
  windowStart := windowStart
  palette := palette
  cells := List.replicate (width * height) ⟨0, palette.colour 0⟩

/-- Samples the window and tells whether any byte of it has changed.  A window that does not
fit in RAM changes nothing. -/
def sample (d : Display) (ram : Ram) : Bool × Display :=
  match ram.readBlock d.windowStart d.cells.length with
  | .error _ => (false, d)
  | .ok window =>
    ((d.cells.zip window).any fun (cell, byte) => cell.index != byte,
      { d with cells := d.cells.zipWith (DisplayCell.refresh d.palette) window })

/-- The bytes last sampled. -/
def snapshot (d : Display) : List UInt8 := d.cells.map (·.index)

/-- The colours shown, row by row. -/
def frame (d : Display) : List Rgb := d.cells.map (·.colour)

/-- The colours shown as bytes: red, green, blue and full opacity for each cell. -/
def rgbaBytes (d : Display) : List UInt8 :=
  d.frame.flatMap fun c => [c.red, c.green, c.blue, 0xFF]

/-- The width and height as 32-bit numbers. -/
def resolution (d : Display) : UInt32 × UInt32 := (UInt32.ofNat d.width, UInt32.ofNat d.height)

end Display

end VirtualPC
