/-
VirtualPC/Proofs/Video/CheckedDrawing.lean

Drawing in 64 bits.  Commands have coordinates of 32 bits with a sign; a machine adds and
clips them in 64 bits with a sign, turns what is left into sizes, and fills the cells and runs
of cells at the products and sums of those.  Here are the commands carried out in that way,

    Checked.draw width height pixels d

with every sum and product, every cell and every run checked.  The width and the height of a
surface are any sizes as long as their product, the number of its cells, can be held: next to a
height of zero a width may be so large that it is negative as a signed number, and then nothing
is drawn.

Main result: no request to a surface fails, be it a command or the reading of a pixel, whatever
was requested before; the pixels are those that the rules of `Surface.draw` give over unbounded
integers, and their number stays what it is (`serve_never_fails`).
-/
import VirtualPC.Proofs.Video.Clipping
import VirtualPC.Proofs.Video.Lettering
import VirtualPC.Proofs.Word.Checked

namespace VirtualPC

/-! ### Requests -/

/-- Something asked of a surface: to carry out a command, or to show a pixel. -/
inductive Request where
  | draw (d : Drawing)
  | read (x y : Int)
deriving DecidableEq, Repr

/-- A surface after requests, and the pixels that it showed, in order. -/
def Surface.serve (s : Surface) : List Request → Surface × List (Option UInt8)
  | [] => (s, [])
  | .draw d :: rest => (s.draw d).serve rest
  | .read x y :: rest =>
    let (after, shown) := s.serve rest
    (after, s.pixel? x y :: shown)

/-- Requests leave the number of pixels what it is. -/
theorem Surface.size_pixels_serve (s : Surface) (requests : List Request) :
    (s.serve requests).1.pixels.size = s.width * s.height := by
  induction requests generalizing s with
  | nil => exact s.size_pixels
  | cons r rest ih =>
    cases r with
    | draw d => exact ih (s.draw d)
    | read x y => exact ih s

/-- A number is a coordinate: it has 32 bits, with a sign. -/
def IsCoordinate (n : Int) : Prop := -0x80000000 ≤ n ∧ n < 0x80000000

/-- The coordinates and sizes of a command are coordinates, and a text is shorter than any that
memory could hold. -/
def Drawing.Fits : Drawing → Prop
  | .clear _ => True
  | .pixel x y _ => IsCoordinate x ∧ IsCoordinate y
  | .fillRect x y w h _ | .drawRect x y w h _ =>
    IsCoordinate x ∧ IsCoordinate y ∧ IsCoordinate w ∧ IsCoordinate h
  | .drawText x y text _ => IsCoordinate x ∧ IsCoordinate y ∧ text.length < 2 ^ 60

/-- A request gives coordinates. -/
def Request.Fits : Request → Prop
  | .draw d => d.Fits
  | .read x y => IsCoordinate x ∧ IsCoordinate y

instance (n : Int) : Decidable (IsCoordinate n) := inferInstanceAs (Decidable (_ ∧ _))

instance (d : Drawing) : Decidable d.Fits :=
  match d with
  | .clear _ => inferInstanceAs (Decidable True)
  | .pixel _ _ _ => inferInstanceAs (Decidable (_ ∧ _))
  | .fillRect _ _ _ _ _ => inferInstanceAs (Decidable (_ ∧ _ ∧ _ ∧ _))
  | .drawRect _ _ _ _ _ => inferInstanceAs (Decidable (_ ∧ _ ∧ _ ∧ _))
  | .drawText _ _ _ _ => inferInstanceAs (Decidable (_ ∧ _ ∧ _))

instance (r : Request) : Decidable r.Fits :=
  match r with
  | .draw d => inferInstanceAs (Decidable d.Fits)
  | .read _ _ => inferInstanceAs (Decidable (_ ∧ _))

/-- A width and a height that a surface can have: two sizes whose product is that of a buffer
that can be held. -/
structure Holdable (width height : Nat) : Prop where
  width_lt : width < sizeLimit
  height_lt : height < sizeLimit
  area_lt : width * height < signedLimit

namespace Checked

/-! ### Commands in 64 bits -/

section Commands

variable (width height : Nat) (pixels : Array UInt8)

/-- The cell of the pixel at a point, if the point is on the surface. -/
def cell? (x y : Int) : Except Trap (Option Nat) :=
  if x < 0 ∨ y < 0 ∨ signed width ≤ x ∨ signed height ≤ y then return none
  else do return some (← add (← mul (unsigned y) width) (unsigned x))

/-- The pixel value at a point, if the point is on the surface. -/
def pixel? (x y : Int) : Except Trap (Option UInt8) := do
  match ← cell? width height x y with
  | none => return none
  | some cell => return some (← read pixels cell)

/-- Sets the pixel at a point, if the point is on the surface. -/
def plot (x y : Int) (colour : UInt8) : Except Trap (Array UInt8) := do
  match ← cell? width height x y with
  | none => return pixels
  | some cell => write pixels cell colour

/-- Fills the cells from `start` up to `stop`. -/
def fillRun (pixels : Array UInt8) (start stop : Nat) (colour : UInt8) :
    Except Trap (Array UInt8) :=
  if start ≤ stop ∧ stop ≤ pixels.size then
    return Surface.fillRun pixels start colour (stop - start)
  else throw .outOfBounds

/-- Fills the columns from `left` up to `right` of a row. -/
def fillRow (left right : Nat) (colour : UInt8) (pixels : Array UInt8) (row : Nat) :
    Except Trap (Array UInt8) := do
  let start ← mul row width
  fillRun pixels (← add start left) (← add start right) colour

/-- Fills the part of a rectangle that is on the surface, row by row. -/
def fillRect (x y w h : Int) (colour : UInt8) : Except Trap (Array UInt8) := do
  let left := max x 0
  let top := max y 0
  let right := min (← addSigned x w) (signed width)
  let bottom := min (← addSigned y h) (signed height)
  if right ≤ left ∨ bottom ≤ top then return pixels
  else
    (List.range' (unsigned top) (unsigned bottom - unsigned top)).foldlM
      (fillRow width (unsigned left) (unsigned right) colour) pixels

/-- Fills the four edges of a rectangle that has a width and a height. -/
def drawRect (x y w h : Int) (colour : UInt8) : Except Trap (Array UInt8) :=
  if w ≤ 0 ∨ h ≤ 0 then return pixels
  else do
    let pixels ← fillRect width height pixels x y w 1 colour
    let bottom ← subSigned (← addSigned y h) 1
    let pixels ← fillRect width height pixels x bottom w 1 colour
    let pixels ← fillRect width height pixels x y 1 h colour
    let right ← subSigned (← addSigned x w) 1
    fillRect width height pixels right y 1 h colour

/-- Sets the lit dots of a glyph. -/
def drawGlyph (pen y : Int) (g : Glyph) (colour : UInt8) (pixels : Array UInt8) :
    Except Trap (Array UInt8) :=
  g.litDots.foldlM (fun pixels dot => do
    plot width height pixels (← addSigned pen dot.2) (← addSigned y dot.1) colour) pixels

/-- Draws characters one advance apart. -/
def drawText (y : Int) (colour : UInt8) : (pen : Int) → List Char → Array UInt8 →
    Except Trap (Array UInt8)
  | _, [], pixels => return pixels
  | pen, c :: rest, pixels => do
    let pixels ← drawGlyph width height pen y (Font.glyph c) colour pixels
    drawText y colour (← addSigned pen Font.advance) rest pixels

/-- Carries out a command. -/
def draw : Drawing → Except Trap (Array UInt8)
  | .clear colour => return pixels.map fun _ => colour
  | .pixel x y colour => plot width height pixels x y colour
  | .fillRect x y w h colour => fillRect width height pixels x y w h colour
  | .drawRect x y w h colour => drawRect width height pixels x y w h colour
  | .drawText x y text colour => drawText width height y colour x text.toList pixels

/-- The pixels after requests, and those that were shown, in order. -/
def serve (pixels : Array UInt8) : List Request →
    Except Trap (Array UInt8 × List (Option UInt8))
  | [] => return (pixels, [])
  | .draw d :: rest => do serve (← draw width height pixels d) rest
  | .read x y :: rest => do
    let pixel ← pixel? width height pixels x y
    let (after, shown) ← serve pixels rest
    return (after, pixel :: shown)

end Commands

/-! ### Sizes of surfaces -/

section Correct

variable {width height : Nat} {pixels : Array UInt8} {x y w h : Int} {colour : UInt8}

theorem signedLimit_le : signedLimit ≤ sizeLimit := by decide

/-- Next to a height, a width is a signed number. -/
theorem width_lt_signedLimit (hsize : Holdable width height) (hheight : 0 < height) :
    width < signedLimit :=
  Nat.lt_of_le_of_lt (Nat.le_mul_of_pos_right width hheight) hsize.area_lt

/-- Next to a width, a height is a signed number. -/
theorem height_lt_signedLimit (hsize : Holdable width height) (hwidth : 0 < width) :
    height < signedLimit :=
  Nat.lt_of_le_of_lt (Nat.le_mul_of_pos_left height hwidth) hsize.area_lt

/-- Whatever lies in the buffer, or at its end, is a size. -/
theorem lt_sizeLimit_of_le_area (hsize : Holdable width height) {cell : Nat}
    (h : cell ≤ width * height) : cell < sizeLimit :=
  Nat.lt_of_le_of_lt h (Nat.lt_of_lt_of_le hsize.area_lt signedLimit_le)

/-! ### Points -/

theorem cell?_of_inside (hsize : Holdable width height)
    (hin : 0 ≤ x ∧ x < width ∧ 0 ≤ y ∧ y < height) :
    cell? width height x y = .ok (some (y.toNat * width + x.toNat)) := by
  have hwidth := width_lt_signedLimit hsize (by omega)
  have hheight := height_lt_signedLimit hsize (by omega)
  have hcell := lt_sizeLimit_of_le_area hsize (Nat.le_of_lt (cell_lt_area hin))
  rw [cell?, signed_of_lt hwidth, signed_of_lt hheight, if_neg (by omega),
    unsigned_of_nonneg hin.1 (by omega), unsigned_of_nonneg hin.2.2.1 (by omega),
    mul_eq_ok (by omega), ok_bind, add_eq_ok hcell]
  rfl

theorem cell?_of_outside (hout : ¬ (0 ≤ x ∧ x < width ∧ 0 ≤ y ∧ y < height)) :
    cell? width height x y = .ok none := by
  have hwidth := signed_le width
  have hheight := signed_le height
  rw [cell?, if_pos (by omega)]
  rfl

theorem plot_eq_ok (hsize : Holdable width height) (hpixels : pixels.size = width * height)
    (x y : Int) (colour : UInt8) :
    plot width height pixels x y colour
      = .ok (Surface.fillSpans pixels colour (Drawing.pixelSpans width height x y)) := by
  by_cases hin : 0 ≤ x ∧ x < width ∧ 0 ≤ y ∧ y < height
  · rw [plot, cell?_of_inside hsize hin, ok_bind, Drawing.pixelSpans, if_pos hin]
    exact write_eq_ok (hpixels ▸ cell_lt_area hin) colour
  · rw [plot, cell?_of_outside hin, ok_bind, Drawing.pixelSpans, if_neg hin]
    rfl

theorem pixel?_eq_ok (s : Surface) (hsize : Holdable s.width s.height) (x y : Int) :
    pixel? s.width s.height s.pixels x y = .ok (s.pixel? x y) := by
  by_cases hin : 0 ≤ x ∧ x < s.width ∧ 0 ≤ y ∧ y < s.height
  · have hcell : y.toNat * s.width + x.toNat < s.pixels.size :=
      s.size_pixels ▸ cell_lt_area hin
    rw [pixel?, cell?_of_inside hsize hin, ok_bind, Surface.pixel?, Surface.cell?, if_pos hin]
    show (read s.pixels (y.toNat * s.width + x.toNat) >>= fun pixel => pure (some pixel))
      = .ok s.pixels[y.toNat * s.width + x.toNat]?
    rw [read_eq_ok hcell, ok_bind, Array.getElem?_eq_getElem hcell]
    rfl
  · rw [pixel?, cell?_of_outside hin, ok_bind, Surface.pixel?_eq_none hin]
    rfl

/-! ### Rectangles -/

theorem fillRow_eq_ok (hsize : Holdable width height) (hpixels : pixels.size = width * height)
    {row left right : Nat} (hrow : row < height) (hleft : left ≤ right) (hright : right ≤ width)
    (colour : UInt8) :
    fillRow width left right colour pixels row
      = .ok (Surface.fillRun pixels (row * width + left) colour (right - left)) := by
  have hrun : Span.Inside ⟨row * width + left, right - left⟩ (width * height) :=
    Span.inside_row hrow (by omega)
  have hend : row * width + right ≤ width * height := by
    have hrun : row * width + left + (right - left) ≤ width * height := hrun
    omega
  have hstop := lt_sizeLimit_of_le_area hsize hend
  have hlength : row * width + right - (row * width + left) = right - left := by omega
  rw [fillRow, mul_eq_ok (by omega), ok_bind, add_eq_ok (by omega), ok_bind, add_eq_ok hstop,
    ok_bind, fillRun, if_pos ⟨by omega, hpixels ▸ hend⟩, hlength]
  rfl

/-- A rectangle of which nothing is on the surface has no spans. -/
theorem rectSpans_eq_nil
    (hempty : min (x + w) width ≤ max x 0 ∨ min (y + h) height ≤ max y 0) :
    Drawing.rectSpans width height x y w h = [] := by
  simp only [Drawing.rectSpans]
  split
  · have hrows : (min (y + h) height).toNat - y.toNat = 0 := by omega
    rw [hrows]
    rfl
  · rfl

/-- The rows of a rectangle are filled one after another. -/
theorem fillRows_eq_ok (hsize : Holdable width height) (hpixels : pixels.size = width * height)
    {rows : List Nat} {left right : Nat} (hrows : ∀ row ∈ rows, row < height)
    (hleft : left ≤ right) (hright : right ≤ width) (colour : UInt8) :
    rows.foldlM (fillRow width left right colour) pixels
      = .ok (Surface.fillSpans pixels colour
          (rows.map fun row => ⟨row * width + left, right - left⟩)) := by
  rw [Surface.fillSpans, List.foldl_map]
  refine foldlM_eq_ok (fun pixels => pixels.size = width * height) hpixels ?_
  intro pixels hpixels row hrow
  exact ⟨fillRow_eq_ok hsize hpixels (hrows row hrow) hleft hright colour,
    (Surface.size_fillRun _ _ _ _).trans hpixels⟩

/-- Clipping finds nothing with the sizes as signed numbers exactly if it finds nothing with
the sizes themselves.  A size that is negative as a signed number stands next to a zero. -/
theorem clipped_signed_iff (hsize : Holdable width height) {left right top bottom : Int}
    (hleft : 0 ≤ left) (htop : 0 ≤ top) :
    (min right (signed width) ≤ left ∨ min bottom (signed height) ≤ top) ↔
      (min right width ≤ left ∨ min bottom height ≤ top) := by
  have hwidth := signed_le width
  have hheight := signed_le height
  constructor
  · intro hempty
    by_contra hsome
    rw [signed_of_lt (width_lt_signedLimit hsize (by omega)),
      signed_of_lt (height_lt_signedLimit hsize (by omega))] at hempty
    exact hsome hempty
  · intro hempty
    omega

theorem fillRect_eq_ok (hsize : Holdable width height) (hpixels : pixels.size = width * height)
    (hx : IsSigned (x + w)) (hy : IsSigned (y + h)) (colour : UInt8) :
    fillRect width height pixels x y w h colour
      = .ok (Surface.fillSpans pixels colour (Drawing.rectSpans width height x y w h)) := by
  have hclip : (min (x + w) (signed width) ≤ max x 0 ∨ min (y + h) (signed height) ≤ max y 0) ↔
      (min (x + w) width ≤ max x 0 ∨ min (y + h) height ≤ max y 0) :=
    clipped_signed_iff hsize (by omega) (by omega)
  rw [fillRect, addSigned_eq_ok hx, ok_bind, addSigned_eq_ok hy, ok_bind]
  by_cases hempty : min (x + w) width ≤ max x 0 ∨ min (y + h) height ≤ max y 0
  · rw [if_pos (hclip.2 hempty), rectSpans_eq_nil hempty]
    rfl
  · have hwidth := width_lt_signedLimit hsize (by omega)
    have hheight := height_lt_signedLimit hsize (by omega)
    have hleft : (max x 0).toNat = x.toNat := by omega
    have htop : (max y 0).toNat = y.toNat := by omega
    rw [if_neg (mt hclip.1 hempty), signed_of_lt hwidth, signed_of_lt hheight,
      unsigned_of_nonneg (by omega) (by omega), unsigned_of_nonneg (by omega) (by omega),
      unsigned_of_nonneg (by omega) (by omega), unsigned_of_nonneg (by omega) (by omega),
      hleft, htop]
    simp only [Drawing.rectSpans]
    rw [if_pos (by omega)]
    refine fillRows_eq_ok hsize hpixels (fun row hrow => ?_) (by omega) (by omega) colour
    rw [List.mem_range'_1] at hrow
    omega

/-! ### Commands -/

theorem fillSpans_append (pixels : Array UInt8) (colour : UInt8) (spans rest : List Span) :
    Surface.fillSpans pixels colour (spans ++ rest)
      = Surface.fillSpans (Surface.fillSpans pixels colour spans) colour rest :=
  List.foldl_append

/-- Nothing near the sum of two coordinates leaves the signed numbers of 64 bits. -/
theorem isSigned_of_near_sum {m n k : Int} (hm : IsCoordinate m) (hn : IsCoordinate n)
    (hlow : m + n - 1 ≤ k) (hhigh : k ≤ m + n + 1) : IsSigned k := by
  obtain ⟨hm, hm'⟩ := hm
  obtain ⟨hn, hn'⟩ := hn
  exact ⟨by omega, by omega⟩

theorem drawRect_eq_ok (hsize : Holdable width height) (hpixels : pixels.size = width * height)
    (hx : IsCoordinate x) (hy : IsCoordinate y) (hw : IsCoordinate w) (hh : IsCoordinate h)
    (colour : UInt8) :
    drawRect width height pixels x y w h colour
      = .ok (Surface.fillSpans pixels colour (Drawing.outlineSpans width height x y w h)) := by
  by_cases hempty : w ≤ 0 ∨ h ≤ 0
  · rw [drawRect, if_pos hempty, Drawing.outlineSpans, if_pos hempty]
    rfl
  · have hzero : IsCoordinate 0 := by decide
    have hright : IsSigned (x + w) := isSigned_of_near_sum hx hw (by omega) (by omega)
    have hright' : IsSigned (x + w - 1) := isSigned_of_near_sum hx hw (by omega) (by omega)
    have hbottom : IsSigned (y + h) := isSigned_of_near_sum hy hh (by omega) (by omega)
    have hbottom' : IsSigned (y + h - 1) := isSigned_of_near_sum hy hh (by omega) (by omega)
    have htop : IsSigned (y + 1) := isSigned_of_near_sum hy hzero (by omega) (by omega)
    have hleft : IsSigned (x + 1) := isSigned_of_near_sum hx hzero (by omega) (by omega)
    have hbottom'' : IsSigned (y + h - 1 + 1) := by rwa [Int.sub_add_cancel]
    have hright'' : IsSigned (x + w - 1 + 1) := by rwa [Int.sub_add_cancel]
    rw [drawRect, if_neg hempty, fillRect_eq_ok hsize hpixels hright htop, ok_bind,
      addSigned_eq_ok hbottom, ok_bind, subSigned_eq_ok hbottom', ok_bind,
      fillRect_eq_ok hsize (by simpa using hpixels) hright hbottom'', ok_bind,
      fillRect_eq_ok hsize (by simpa using hpixels) hleft hbottom, ok_bind,
      addSigned_eq_ok hright, ok_bind, subSigned_eq_ok hright', ok_bind,
      fillRect_eq_ok hsize (by simpa using hpixels) hright'' hbottom,
      Drawing.outlineSpans, if_neg hempty]
    simp only [fillSpans_append]

theorem drawGlyph_eq_ok (hsize : Holdable width height)
    (hpixels : pixels.size = width * height) {pen : Int} (g : Glyph)
    (hpen : -0x80000000 ≤ pen ∧ pen + Font.glyphWidth < 0x8000000000000000)
    (hy : IsCoordinate y) (colour : UInt8) :
    drawGlyph width height pen y g colour pixels
      = .ok (Surface.fillSpans pixels colour (Drawing.glyphSpans width height pen y g)) := by
  rw [drawGlyph, Drawing.glyphSpans, Surface.fillSpans, List.foldl_flatMap]
  refine foldlM_eq_ok (fun pixels => pixels.size = width * height) hpixels ?_
  intro pixels hpixels dot hdot
  obtain ⟨hrow, hcolumn, -⟩ := Glyph.mem_litDots_iff.1 hdot
  obtain ⟨hy, hy'⟩ := hy
  have hcolumn' : IsSigned (pen + dot.2) := ⟨by omega, by omega⟩
  have hrow' : IsSigned (y + dot.1) := by
    rw [Font.glyphHeight] at hrow
    exact ⟨by omega, by omega⟩
  rw [addSigned_eq_ok hcolumn', ok_bind, addSigned_eq_ok hrow', ok_bind]
  exact ⟨plot_eq_ok hsize hpixels _ _ colour, (Surface.size_fillSpans _ _ _).trans hpixels⟩

theorem drawText_eq_ok (hsize : Holdable width height)
    (hpixels : pixels.size = width * height) {pen : Int} {chars : List Char}
    (hpen : -0x80000000 ≤ pen ∧
      pen + chars.length * Font.advance + Font.glyphWidth < 0x8000000000000000)
    (hy : IsCoordinate y) (colour : UInt8) :
    drawText width height y colour pen chars pixels
      = .ok (Surface.fillSpans pixels colour (Drawing.textSpans width height pen y chars)) := by
  induction chars generalizing pen pixels with
  | nil => rfl
  | cons c rest ih =>
    have hadvance : (Font.advance : Int) = 6 := rfl
    have hwidth : (Font.glyphWidth : Int) = 5 := rfl
    rw [List.length_cons, Nat.cast_succ, hadvance, hwidth] at hpen
    have hnext : IsSigned (pen + Font.advance) := ⟨by omega, by omega⟩
    have hrest : pen + Font.advance + rest.length * Font.advance + Font.glyphWidth
        < 0x8000000000000000 := by
      rw [hadvance, hwidth]
      omega
    rw [drawText, drawGlyph_eq_ok hsize hpixels _ (by omega) hy, ok_bind, addSigned_eq_ok hnext,
      ok_bind, ih (by simpa using hpixels) ⟨by omega, hrest⟩, Drawing.textSpans,
      fillSpans_append]

/-- Setting every pixel is filling the whole buffer. -/
theorem map_eq_fillSpans (pixels : Array UInt8) (colour : UInt8) :
    (pixels.map fun _ => colour) = Surface.fillSpans pixels colour [⟨0, pixels.size⟩] := by
  refine Array.ext_getElem? fun k => ?_
  rw [Array.getElem?_map, Surface.getElem?_fillSpans]
  by_cases hk : k < pixels.size
  · have hspan : ∃ span ∈ [(⟨0, pixels.size⟩ : Span)], span.Contains k :=
      ⟨_, List.mem_singleton_self _, Nat.zero_le k, by rwa [Nat.zero_add]⟩
    rw [if_pos hspan]
  · rw [Array.getElem?_eq_none (Nat.not_lt.1 hk)]
    exact (ite_self _).symm

/-- **A command in 64 bits** fills the spans of the command over unbounded integers. -/
theorem draw_eq_ok (hsize : Holdable width height) (hpixels : pixels.size = width * height)
    {d : Drawing} (hfits : d.Fits) :
    draw width height pixels d
      = .ok (Surface.fillSpans pixels d.colour (d.spans width height)) := by
  cases d with
  | clear colour =>
    show Except.ok _ = Except.ok (Surface.fillSpans pixels colour [⟨0, width * height⟩])
    rw [map_eq_fillSpans, hpixels]
  | pixel x y colour => exact plot_eq_ok hsize hpixels x y colour
  | fillRect x y w h colour =>
    obtain ⟨hx, hy, hw, hh⟩ := hfits
    exact fillRect_eq_ok hsize hpixels (isSigned_of_near_sum hx hw (by omega) (by omega))
      (isSigned_of_near_sum hy hh (by omega) (by omega)) colour
  | drawRect x y w h colour =>
    obtain ⟨hx, hy, hw, hh⟩ := hfits
    exact drawRect_eq_ok hsize hpixels hx hy hw hh colour
  | drawText x y text colour =>
    obtain ⟨⟨hx, hx'⟩, hy, hlength⟩ := hfits
    rw [← String.length_toList] at hlength
    have hadvance : (Font.advance : Int) = 6 := rfl
    have hwidth : (Font.glyphWidth : Int) = 5 := rfl
    exact drawText_eq_ok hsize hpixels ⟨hx, by rw [hadvance, hwidth]; omega⟩ hy colour

/-! ### Requests -/

/-- Requests in 64 bits are served as they are over unbounded integers. -/
theorem serve_eq_ok (s : Surface) (requests : List Request)
    (hsize : Holdable s.width s.height) (hfits : ∀ r ∈ requests, r.Fits) :
    serve s.width s.height s.pixels requests
      = .ok ((s.serve requests).1.pixels, (s.serve requests).2) := by
  induction requests generalizing s with
  | nil => rfl
  | cons r rest ih =>
    have hr := hfits r List.mem_cons_self
    have hrest := fun other hother => hfits other (List.mem_cons_of_mem r hother)
    cases r with
    | draw d =>
      rw [serve, draw_eq_ok hsize s.size_pixels hr, ok_bind]
      exact ih (s.draw d) hsize hrest
    | read x y =>
      rw [serve, pixel?_eq_ok s hsize, ok_bind, ih s hsize hrest]
      rfl

theorem cell?_eq_ok (s : Surface) (hsize : Holdable s.width s.height) (x y : Int) :
    cell? s.width s.height x y = .ok (s.cell? x y) := by
  by_cases hin : 0 ≤ x ∧ x < s.width ∧ 0 ≤ y ∧ y < s.height
  · rw [cell?_of_inside hsize hin, Surface.cell?, if_pos hin]
  · rw [cell?_of_outside hin, Surface.cell?, if_neg hin]

/-- **Drawing never fails.**  A surface has a width and a height whose product can be held, one
of them any size if the other is zero.  Whatever is requested of it, at any coordinates, is
served in 64 bits without a trap, as it is over unbounded integers.  There are `width * height`
cells before and after; every run of cells that a command fills is one of the buffer, and the
cell of a point is one of the buffer that no other point has. -/
theorem serve_never_fails (s : Surface) (requests : List Request)
    (hsize : Holdable s.width s.height) (hfits : ∀ r ∈ requests, r.Fits) :
    mul s.width s.height = .ok s.pixels.size ∧
    serve s.width s.height s.pixels requests
      = .ok ((s.serve requests).1.pixels, (s.serve requests).2) ∧
    (s.serve requests).1.pixels.size = s.width * s.height ∧
    (∀ d, .draw d ∈ requests → ∀ span ∈ d.spans s.width s.height,
      span.start + span.length ≤ s.pixels.size) ∧
    (∀ x y, cell? s.width s.height x y = .ok (s.cell? x y)) ∧
    (∀ x y cell, s.cell? x y = some cell → cell < s.pixels.size ∧
      ∀ x' y', s.cell? x' y' = some cell → x = x' ∧ y = y') := by
  have harea : mul s.width s.height = .ok s.pixels.size := by
    rw [s.size_pixels]
    exact mul_eq_ok (lt_sizeLimit_of_le_area hsize le_rfl)
  refine ⟨harea, serve_eq_ok s requests hsize hfits, s.size_pixels_serve requests, ?_,
    cell?_eq_ok s hsize, ?_⟩
  · intro d _ span hspan
    rw [s.size_pixels]
    exact Drawing.inside_of_mem_spans hspan
  · intro x y cell hcell
    rw [s.size_pixels]
    exact ⟨Surface.lt_of_cell? hcell, fun x' y' hcell' => Surface.cell?_inj hcell hcell'⟩

/-- Requests with coordinates at both ends of the range. -/
def farRequests : List Request :=
  [.draw (.clear 1), .draw (.fillRect (-0x80000000) (-0x80000000) 0x7fffffff 0x7fffffff 2),
    .draw (.drawRect 3 (-1) 0x7fffffff 0x7fffffff 3),
    .draw (.drawText 0x7fffffff (-0x80000000) "HALT" 4), .draw (.drawText (-20) 0 "HALT" 5),
    .read 0 0, .read 3 0, .read 0x7fffffff (-0x80000000)]

/-- A small surface, and one that is as wide as can be and has no row. -/
theorem farRequests_served :
    (Holdable 4 3 ∧ Holdable (sizeLimit - 1) 0 ∧ ∀ r ∈ farRequests, r.Fits) ∧
    serve 4 3 (Surface.blank 4 3).pixels farRequests
      = .ok (#[5, 5, 5, 3, 5, 1, 1, 3, 5, 1, 1, 3], [some 5, some 3, none]) ∧
    serve (sizeLimit - 1) 0 (Surface.blank (sizeLimit - 1) 0).pixels farRequests
      = .ok (#[], [none, none, none]) := by
  have hsmall : Holdable 4 3 := ⟨by decide, by decide, by decide⟩
  have hwide : Holdable (sizeLimit - 1) 0 := ⟨by decide, by decide, by decide⟩
  have hfits : ∀ r ∈ farRequests, r.Fits := by decide
  obtain ⟨-, hserved, -⟩ := serve_never_fails (Surface.blank 4 3) farRequests hsmall hfits
  obtain ⟨-, hserved', -⟩ :=
    serve_never_fails (Surface.blank (sizeLimit - 1) 0) farRequests hwide hfits
  refine ⟨⟨hsmall, hwide, hfits⟩, hserved.trans ?_, hserved'.trans ?_⟩
  · cbv
  · cbv

end Correct

end Checked

end VirtualPC
