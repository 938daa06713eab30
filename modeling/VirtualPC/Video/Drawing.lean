/-
VirtualPC/Video/Drawing.lean

Drawing commands and their clipping.  A command has coordinates of any sign and size; on a
surface of given size it comes down to *spans*, runs of consecutive cells of the row-major
pixel buffer, and whatever lies off the surface yields no span.  Painting a command is
filling its spans.
-/
import VirtualPC.Video.Font

namespace VirtualPC

/-- Something to draw in one colour. -/
inductive Drawing where
  /-- The whole surface. -/
  | clear (colour : UInt8)
  | pixel (x y : Int) (colour : UInt8)
  /-- A filled rectangle with the given corner, width and height. -/
  | fillRect (x y width height : Int) (colour : UInt8)
  /-- The outline of a rectangle, one pixel wide. -/
  | drawRect (x y width height : Int) (colour : UInt8)
  /-- A line of text with the given top left corner. -/
  | drawText (x y : Int) (text : String) (colour : UInt8)
deriving DecidableEq, Repr

/-- A run of consecutive cells of a pixel buffer. -/
structure Span where
  start : Nat
  length : Nat
deriving DecidableEq, Repr

/-- Whether a cell belongs to a span. -/
def Span.Contains (s : Span) (cell : Nat) : Prop := s.start ≤ cell ∧ cell < s.start + s.length

namespace Drawing

/-- The colour a command paints with. -/
def colour : Drawing → UInt8
  | clear c | pixel _ _ c | fillRect _ _ _ _ c | drawRect _ _ _ _ c | drawText _ _ _ c => c

variable (width height : Nat)

/-- The span of one pixel. -/
def pixelSpans (x y : Int) : List Span :=
  if 0 ≤ x ∧ x < width ∧ 0 ≤ y ∧ y < height then [⟨y.toNat * width + x.toNat, 1⟩] else []

/-- The spans of a filled rectangle: the part of each of its rows that is on the surface. -/
def rectSpans (x y w h : Int) : List Span :=
  let left := x.toNat
  let right := (min (x + w) width).toNat
  let top := y.toNat
  let bottom := (min (y + h) height).toNat
  if left < right then
    (List.range' top (bottom - top)).map fun row => ⟨row * width + left, right - left⟩
  else []

/-- The spans of an outline: its top, bottom, left and right edge.  A rectangle without
width or height has none. -/
def outlineSpans (x y w h : Int) : List Span :=
  if w ≤ 0 ∨ h ≤ 0 then []
  else
    rectSpans width height x y w 1 ++ rectSpans width height x (y + h - 1) w 1 ++
      rectSpans width height x y 1 h ++ rectSpans width height (x + w - 1) y 1 h

/-- The spans of a glyph: one for each of its lit dots. -/
def glyphSpans (x y : Int) (g : Glyph) : List Span :=
  g.litDots.flatMap fun dot => pixelSpans width height (x + dot.2) (y + dot.1)

/-- The spans of a text, its characters one advance apart. -/
def textSpans (x y : Int) : List Char → List Span
  | [] => []
  | c :: rest =>
    glyphSpans width height x y (Font.glyph c) ++ textSpans (x + Font.advance) y rest

/-- The spans of a command on a surface of the given width and height. -/
def spans : Drawing → List Span
  | clear _ => [⟨0, width * height⟩]
  | pixel x y _ => pixelSpans width height x y
  | fillRect x y w h _ => rectSpans width height x y w h
  | drawRect x y w h _ => outlineSpans width height x y w h
  | drawText x y text _ => textSpans width height x y text.toList

end Drawing

end VirtualPC
