/-
VirtualPC/Video/Surface.lean

Surfaces: off-screen buffers of pixel values in row-major order, the top left pixel first.
Drawing on a surface never fails and never changes its size; nothing of it reaches guest RAM
until the surface is presented.
-/
import VirtualPC.Memory
import VirtualPC.Video.Drawing

namespace VirtualPC

/-- A buffer of `width * height` pixel values. -/
structure Surface where
  width : Nat
  height : Nat
  pixels : Array UInt8
  size_pixels : pixels.size = width * height

namespace Surface

/-- The surface of the given size with every pixel zero. -/
def blank (width height : Nat) : Surface where
  width := width
  height := height
  pixels := Array.replicate (width * height) 0
  size_pixels := by simp

/-- The cell of the pixel at a point, if the point is on the surface. -/
def cell? (s : Surface) (x y : Int) : Option Nat :=
  if 0 ≤ x ∧ x < s.width ∧ 0 ≤ y ∧ y < s.height then some (y.toNat * s.width + x.toNat)
  else none

/-- The pixel value at a point, if the point is on the surface. -/
def pixel? (s : Surface) (x y : Int) : Option UInt8 := do
  s.pixels[← s.cell? x y]?

/-- A pixel buffer with `count` cells from `start` on set to a colour; cells past its end are
dropped. -/
def fillRun (pixels : Array UInt8) (start : Nat) (colour : UInt8) : (count : Nat) → Array UInt8
  | 0 => pixels
  | count + 1 => fillRun (pixels.setIfInBounds start colour) (start + 1) colour count

/-- A pixel buffer with spans filled in one colour. -/
def fillSpans (pixels : Array UInt8) (colour : UInt8) (spans : List Span) : Array UInt8 :=
  spans.foldl (fun pixels s => fillRun pixels s.start colour s.length) pixels

@[simp] theorem size_fillRun (pixels : Array UInt8) (start : Nat) (colour : UInt8)
    (count : Nat) : (fillRun pixels start colour count).size = pixels.size := by
  induction count generalizing pixels start with
  | zero => rfl
  | succ count ih => simp [fillRun, ih]

@[simp] theorem size_fillSpans (pixels : Array UInt8) (colour : UInt8) (spans : List Span) :
    (fillSpans pixels colour spans).size = pixels.size := by
  induction spans generalizing pixels with
  | nil => rfl
  | cons s spans ih => simpa [fillSpans] using ih (fillRun pixels s.start colour s.length)

/-- Carries out a drawing command. -/
def draw (s : Surface) (d : Drawing) : Surface where
  width := s.width
  height := s.height
  pixels := fillSpans s.pixels d.colour (d.spans s.width s.height)
  size_pixels := by simpa using s.size_pixels

/-- Carries out drawing commands in order. -/
def drawAll (s : Surface) (ds : List Drawing) : Surface := ds.foldl draw s

/-- RAM with the whole surface copied to `start`.  A surface that does not fit leaves no
trace. -/
@[inline] def present (s : Surface) (ram : Ram) (start : Nat) : Except MemoryError Ram :=
  ram.writeBlock start s.pixels.toList

end Surface

end VirtualPC
