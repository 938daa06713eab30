/-
VirtualPC/Proofs/Video/Rectangles.lean

Rectangles point by point.  A filled rectangle is painted by runs of cells, one for each row
that is on the surface, cut off at its edges; an outline is painted by four such rectangles,
which overlap in the corners and, if it is thin, all along.  What comes out is what one would
get from a pen that visits the points of the rectangle one after another,

    rectPixels left top w h colour    one pixel for each point, row by row

and drops those off the surface (`draw_fillRect_eq_drawAll`).

Main result: exactly the points of a rectangle, or of its rim, are set, and every other pixel
is as before, for corners and sizes of any sign and size (`rectangles_exact`).
-/
import VirtualPC.Proofs.Video.Painting

namespace VirtualPC

namespace Drawing

variable {left top w h x y : Int} {colour : UInt8}

/-- The points of a rectangle, row by row, as pixels to draw. -/
def rectPixels (left top w h : Int) (colour : UInt8) : List Drawing :=
  (List.range h.toNat).flatMap fun row : Nat =>
    (List.range w.toNat).map fun column : Nat => .pixel (left + column) (top + row) colour

theorem mem_rectPixels {d : Drawing} :
    d ∈ rectPixels left top w h colour ↔
      ∃ row < h.toNat, ∃ column < w.toNat, d = .pixel (left + column) (top + row) colour := by
  simp [rectPixels, eq_comm]

/-- The pixels of a rectangle are its points, each of them and no others. -/
theorem exists_mem_rectPixels_iff :
    (∃ d ∈ rectPixels left top w h colour, d.Covers x y) ↔ InRect left top w h x y := by
  constructor
  · rintro ⟨d, hd, hcovers⟩
    obtain ⟨row, hrow, column, hcolumn, rfl⟩ := mem_rectPixels.1 hd
    obtain ⟨rfl, rfl⟩ := hcovers
    exact ⟨by omega, by omega, by omega, by omega⟩
  · rintro ⟨hleft, hright, htop, hbottom⟩
    have hmem : .pixel (left + (x - left).toNat) (top + (y - top).toNat) colour
        ∈ rectPixels left top w h colour :=
      mem_rectPixels.2 ⟨(y - top).toNat, by omega, (x - left).toNat, by omega, rfl⟩
    exact ⟨_, hmem, by omega, by omega⟩

/-- Only a rectangle with a width and a height has a rim. -/
theorem covers_drawRect_iff :
    (drawRect left top w h colour).Covers x y ↔ 0 < w ∧ 0 < h ∧ InRect left top w h x y ∧
      (x = left ∨ x = left + w - 1 ∨ y = top ∨ y = top + h - 1) := by
  constructor
  · rintro ⟨hin, hrim⟩
    obtain ⟨hleft, hright, htop, hbottom⟩ := id hin
    exact ⟨by omega, by omega, hin, hrim⟩
  · rintro ⟨-, -, hin, hrim⟩
    exact ⟨hin, hrim⟩

end Drawing

namespace Surface

/-- Filling a rectangle row by row is drawing its points one by one. -/
theorem draw_fillRect_eq_drawAll (s : Surface) (left top w h : Int) (colour : UInt8) :
    s.draw (.fillRect left top w h colour)
      = s.drawAll (Drawing.rectPixels left top w h colour) := by
  refine draw_eq_drawAll s _ _ ?_ fun x y => Drawing.exists_mem_rectPixels_iff
  intro d hd
  obtain ⟨row, -, column, -, rfl⟩ := Drawing.mem_rectPixels.1 hd
  rfl

/-- **Rectangles are exact.**  Filling sets the points `(x, y)` of the surface with
`left ≤ x < left + w` and `top ≤ y < top + h`, and an outline those of them on the rim, if the
rectangle has a width and a height; every other pixel is as before.  Corner and size are any
integers, and nothing is said of the size of the surface.  Filling row by row leaves what
drawing the points one by one leaves. -/
theorem rectangles_exact (s : Surface) (left top w h : Int) (colour : UInt8) :
    (∀ x y : Nat, x < s.width → y < s.height →
      (s.draw (.fillRect left top w h colour)).pixel? x y
        = (if left ≤ x ∧ x < left + w ∧ top ≤ y ∧ y < top + h then some colour
          else s.pixel? x y) ∧
      (s.draw (.drawRect left top w h colour)).pixel? x y
        = (if 0 < w ∧ 0 < h ∧ (left ≤ x ∧ x < left + w ∧ top ≤ y ∧ y < top + h) ∧
            (x = left ∨ x = left + w - 1 ∨ y = top ∨ y = top + h - 1) then some colour
          else s.pixel? x y)) ∧
    s.draw (.fillRect left top w h colour)
      = s.drawAll (Drawing.rectPixels left top w h colour) := by
  refine ⟨fun x y hx hy => ⟨?_, ?_⟩, draw_fillRect_eq_drawAll s left top w h colour⟩
  · exact pixel?_draw_of_lt s _ hx hy
  · rw [pixel?_draw_of_lt s _ hx hy]
    simp only [Drawing.covers_drawRect_iff, InRect, Drawing.colour]

/-- The largest width and height that 32 bits hold with a sign. -/
def largestSize : Int := 0x7FFFFFFF

/-- Rectangles that end far beyond the surface, and beyond 32 bits. -/
theorem overlong_rectangles_drawn :
    ((blank 4 3).draw (.fillRect 2 1 largestSize largestSize 7)).pixel? 3 2 = some 7 ∧
    ((blank 4 3).draw (.fillRect 2 1 largestSize largestSize 7)).pixel? 1 2 = some 0 ∧
    ((blank 4 3).draw (.drawRect 2 1 largestSize largestSize 7)).pixel? 3 1 = some 7 ∧
    ((blank 4 3).draw (.drawRect 2 1 largestSize largestSize 7)).pixel? 3 2 = some 0 := by
  obtain ⟨hpoints, -⟩ := rectangles_exact (blank 4 3) 2 1 largestSize largestSize 7
  refine ⟨?_, ?_, ?_, ?_⟩
  · exact (hpoints 3 2 (by decide) (by decide)).1
  · exact (hpoints 1 2 (by decide) (by decide)).1
  · exact (hpoints 3 1 (by decide) (by decide)).2
  · exact (hpoints 3 2 (by decide) (by decide)).2

end Surface

end VirtualPC
