/-
VirtualPC/Proofs/Video/Painting.lean

What drawing commands paint, point by point.  A command covers points of the whole plane
(`Drawing.Covers`), and a surface has no say in which: clipping comes down to leaving out the
points that are not on the surface.  So the cells that a clipped command fills are told by the
points of the plane that it covers,

    (∃ span ∈ d.spans width height, span.Contains (y * width + x)) ↔ d.Covers x y

for every point on the surface (`exists_mem_spans_iff`), and a pixel after a command is the
colour of the command if that covers it, and else what it was (`pixel?_draw`).

Main result: drawing commutes with cropping (`agree_drawAll`).  What a surface shows at a point
never depends on where its edges are.
-/
import VirtualPC.Video.Surface

namespace VirtualPC

/-! ### Points of the plane -/

/-- A point lies in the rectangle with the given corner, width and height. -/
def InRect (left top width height x y : Int) : Prop :=
  left ≤ x ∧ x < left + width ∧ top ≤ y ∧ y < top + height

/-- The dot of a glyph at a distance from its top left corner is lit. -/
def Glyph.Lights (g : Glyph) (dx dy : Int) : Prop :=
  ∃ dot ∈ g.litDots, dx = dot.2 ∧ dy = dot.1

instance (g : Glyph) (dx dy : Int) : Decidable (g.Lights dx dy) :=
  inferInstanceAs (Decidable (∃ dot ∈ g.litDots, _ ∧ _))

namespace Drawing

/-- A command covers a point of the plane. -/
def Covers : Drawing → (x y : Int) → Prop
  | clear _, _, _ => True
  | pixel left top _, x, y => x = left ∧ y = top
  | fillRect left top w h _, x, y => InRect left top w h x y
  | drawRect left top w h _, x, y =>
    InRect left top w h x y ∧ (x = left ∨ x = left + w - 1 ∨ y = top ∨ y = top + h - 1)
  | drawText left top text _, x, y =>
    ∃ entry ∈ text.toList.zipIdx,
      (Font.glyph entry.1).Lights (x - (left + Font.advance * entry.2)) (y - top)

instance (d : Drawing) (x y : Int) : Decidable (d.Covers x y) :=
  match d with
  | clear _ => inferInstanceAs (Decidable True)
  | pixel _ _ _ => inferInstanceAs (Decidable (_ ∧ _))
  | fillRect _ _ _ _ _ => inferInstanceAs (Decidable (_ ∧ _ ∧ _ ∧ _))
  | drawRect _ _ _ _ _ => inferInstanceAs (Decidable ((_ ∧ _ ∧ _ ∧ _) ∧ _))
  | drawText left top text _ => inferInstanceAs (Decidable (∃ entry ∈ text.toList.zipIdx,
      (Font.glyph entry.1).Lights (x - (left + Font.advance * entry.2)) (y - top)))

end Drawing

instance (s : Span) (cell : Nat) : Decidable (s.Contains cell) :=
  inferInstanceAs (Decidable (_ ∧ _))

/-! ### Rows and columns -/

/-- A run inside a row holds the cells of that row between its ends. -/
theorem Span.contains_row_iff (row left count y : Nat) {width x : Nat} (hx : x < width)
    (hfits : left + count ≤ width) :
    Span.Contains ⟨row * width + left, count⟩ (y * width + x) ↔
      y = row ∧ left ≤ x ∧ x < left + count := by
  show row * width + left ≤ y * width + x ∧ y * width + x < row * width + left + count ↔ _
  rcases Nat.lt_trichotomy y row with hlt | rfl | hgt
  -- a cell of a row above comes before the run, and one of a row below after it
  · have hrow : (y + 1) * width ≤ row * width := Nat.mul_le_mul_right width hlt
    rw [Nat.succ_mul] at hrow
    omega
  · constructor
    · intro h
      exact ⟨rfl, by omega⟩
    · intro h
      omega
  · have hrow : (row + 1) * width ≤ y * width := Nat.mul_le_mul_right width hgt
    rw [Nat.succ_mul] at hrow
    omega

/-! ### Spans -/

namespace Drawing

variable {width height x y : Nat}

theorem exists_mem_pixelSpans_iff (hx : x < width) (hy : y < height) (left top : Int) :
    (∃ span ∈ pixelSpans width height left top, span.Contains (y * width + x)) ↔
      x = left ∧ y = top := by
  unfold pixelSpans
  by_cases h : 0 ≤ left ∧ left < width ∧ 0 ≤ top ∧ top < height
  · have hrow := Span.contains_row_iff top.toNat left.toNat 1 y hx (by omega)
    rw [if_pos h]
    simp only [List.mem_singleton, exists_eq_left, hrow]
    omega
  · rw [if_neg h]
    simp only [List.not_mem_nil, false_and, exists_false, false_iff]
    omega

theorem exists_mem_rectSpans_iff (hx : x < width) (hy : y < height) (left top w h : Int) :
    (∃ span ∈ rectSpans width height left top w h, span.Contains (y * width + x)) ↔
      InRect left top w h x y := by
  unfold rectSpans InRect
  by_cases hempty : left.toNat < (min (left + w) width).toNat
  · have hrow (row : Nat) := Span.contains_row_iff row left.toNat
      ((min (left + w) width).toNat - left.toNat) y hx (by omega)
    rw [if_pos hempty]
    -- of the rows of the rectangle, that of the point
    constructor
    · rintro ⟨span, hspan, hcell⟩
      obtain ⟨row, hrange, rfl⟩ := List.mem_map.1 hspan
      obtain ⟨rfl, hcolumn⟩ := (hrow row).1 hcell
      rw [List.mem_range'_1] at hrange
      omega
    · intro hin
      have hrange : y ∈ List.range' top.toNat ((min (top + h) height).toNat - top.toNat) :=
        List.mem_range'_1.2 (by omega)
      exact ⟨_, List.mem_map.2 ⟨y, hrange, rfl⟩, (hrow y).2 ⟨rfl, by omega⟩⟩
  · simp only [if_neg hempty, List.not_mem_nil, false_and, exists_false, false_iff]
    omega

theorem exists_mem_outlineSpans_iff (hx : x < width) (hy : y < height) (left top w h : Int) :
    (∃ span ∈ outlineSpans width height left top w h, span.Contains (y * width + x)) ↔
      InRect left top w h x y ∧
        (x = left ∨ x = left + w - 1 ∨ y = top ∨ y = top + h - 1) := by
  unfold outlineSpans
  by_cases hempty : w ≤ 0 ∨ h ≤ 0
  · simp only [if_pos hempty, List.not_mem_nil, false_and, exists_false, false_iff, InRect]
    omega
  -- each edge is a rectangle one pixel wide or high
  · simp only [if_neg hempty, List.mem_append, or_and_right, exists_or,
      exists_mem_rectSpans_iff hx hy, InRect]
    omega

theorem exists_mem_glyphSpans_iff (hx : x < width) (hy : y < height) (left top : Int)
    (g : Glyph) :
    (∃ span ∈ glyphSpans width height left top g, span.Contains (y * width + x)) ↔
      g.Lights (x - left) (y - top) := by
  unfold glyphSpans Glyph.Lights
  simp only [List.mem_flatMap]
  constructor
  · rintro ⟨span, ⟨dot, hdot, hspan⟩, hcell⟩
    have hpoint := (exists_mem_pixelSpans_iff hx hy _ _).1 ⟨span, hspan, hcell⟩
    exact ⟨dot, hdot, by omega, by omega⟩
  · rintro ⟨dot, hdot, hcolumn, hrow⟩
    obtain ⟨span, hspan, hcell⟩ := (exists_mem_pixelSpans_iff hx hy (left + dot.2)
      (top + dot.1)).2 ⟨by omega, by omega⟩
    exact ⟨span, ⟨dot, hdot, hspan⟩, hcell⟩

/-- A text covers what its characters do, each an advance behind the one before. -/
theorem exists_mem_textSpans_iff (hx : x < width) (hy : y < height) (left top : Int)
    (chars : List Char) (k : Nat) :
    (∃ span ∈ textSpans width height (left + Font.advance * k) top chars,
        span.Contains (y * width + x)) ↔
      ∃ entry ∈ chars.zipIdx k,
        (Font.glyph entry.1).Lights (x - (left + Font.advance * entry.2)) (y - top) := by
  induction chars generalizing k with
  | nil => simp [textSpans]
  | cons c rest ih =>
    have hnext : left + Font.advance * k + Font.advance = left + Font.advance * (k + 1 : Nat) := by
      rw [Int.natCast_succ, Int.mul_add, Int.mul_one, Int.add_assoc]
    simp only [textSpans, List.mem_append, or_and_right, exists_or, hnext, ih,
      exists_mem_glyphSpans_iff hx hy, List.zipIdx_cons, List.mem_cons, exists_eq_left]

/-- **Clipping leaves out what is off the surface, and nothing else**: on the surface, the
cells filled are those of the points covered. -/
theorem exists_mem_spans_iff (hx : x < width) (hy : y < height) (d : Drawing) :
    (∃ span ∈ d.spans width height, span.Contains (y * width + x)) ↔ d.Covers x y := by
  cases d with
  | clear colour =>
    have hrows : (y + 1) * width ≤ height * width := Nat.mul_le_mul_right width hy
    rw [Nat.succ_mul, Nat.mul_comm height] at hrows
    have hcell : y * width + x < 0 + width * height := by omega
    exact iff_of_true ⟨_, List.mem_singleton_self _, Nat.zero_le _, hcell⟩ trivial
  | pixel left top colour => exact exists_mem_pixelSpans_iff hx hy left top
  | fillRect left top w h colour => exact exists_mem_rectSpans_iff hx hy left top w h
  | drawRect left top w h colour => exact exists_mem_outlineSpans_iff hx hy left top w h
  | drawText left top text colour =>
    have htext := exists_mem_textSpans_iff hx hy left top text.toList 0
    rw [Int.natCast_zero, Int.mul_zero, Int.add_zero] at htext
    exact htext

/-- The colour that commands leave at a point which had the colour `before`: that of the last
of them which covers it. -/
def paint (ds : List Drawing) (x y : Int) (before : UInt8) : UInt8 :=
  ds.foldl (fun shown d => if d.Covers x y then d.colour else shown) before

theorem paint_append (ds rest : List Drawing) (x y : Int) (before : UInt8) :
    paint (ds ++ rest) x y before = paint rest x y (paint ds x y before) :=
  List.foldl_append

variable {ds : List Drawing} {d : Drawing} {x y : Int}

theorem paint_cons_of_covers (h : d.Covers x y) (before : UInt8) :
    paint (d :: ds) x y before = paint ds x y d.colour := by
  show paint ds x y (if d.Covers x y then d.colour else before) = _
  rw [if_pos h]

theorem paint_cons_of_not_covers (h : ¬ d.Covers x y) (before : UInt8) :
    paint (d :: ds) x y before = paint ds x y before := by
  show paint ds x y (if d.Covers x y then d.colour else before) = _
  rw [if_neg h]

theorem paint_of_not_covers (h : ∀ d ∈ ds, ¬ d.Covers x y) (before : UInt8) :
    paint ds x y before = before := by
  induction ds with
  | nil => rfl
  | cons d rest ih =>
    rw [paint_cons_of_not_covers (h d List.mem_cons_self)]
    exact ih fun e he => h e (List.mem_cons_of_mem d he)

/-- Commands of one colour leave it at the points that any of them covers. -/
theorem paint_of_colour {c : UInt8} (h : ∀ d ∈ ds, d.colour = c) (x y : Int) (before : UInt8) :
    paint ds x y before = if ∃ d ∈ ds, d.Covers x y then c else before := by
  induction ds generalizing before with
  | nil => simp [paint]
  | cons d rest ih =>
    have hrest := ih fun e he => h e (List.mem_cons_of_mem d he)
    by_cases hd : d.Covers x y
    · rw [paint_cons_of_covers hd, hrest, h d List.mem_cons_self, ite_self,
        if_pos ⟨d, List.mem_cons_self, hd⟩]
    · rw [paint_cons_of_not_covers hd, hrest]
      simp only [List.mem_cons, exists_eq_or_imp, hd, false_or]

end Drawing

namespace Surface

variable {s t : Surface} {ds : List Drawing}

/-! ### Filled cells -/

theorem getElem?_fillRun (pixels : Array UInt8) (start : Nat) (colour : UInt8) (count k : Nat) :
    (fillRun pixels start colour count)[k]?
      = if start ≤ k ∧ k < start + count then pixels[k]?.map fun _ => colour
        else pixels[k]? := by
  induction count generalizing pixels start with
  | zero =>
    rw [if_neg (by omega)]
    rfl
  | succ count ih =>
    rw [fillRun, ih, Array.getElem?_setIfInBounds]
    by_cases hk : start = k
    -- the first cell of the run; the others are filled behind it
    · subst hk
      rw [if_neg (by omega), if_pos rfl, if_pos (show _ ∧ _ by omega)]
      by_cases hsize : start < pixels.size
      · rw [if_pos hsize, Array.getElem?_eq_getElem hsize, Option.map_some]
      · rw [if_neg hsize, Array.getElem?_eq_none (Nat.not_lt.1 hsize), Option.map_none]
    · rw [if_neg hk]
      by_cases hin : start + 1 ≤ k ∧ k < start + 1 + count
      · rw [if_pos hin, if_pos (by omega)]
      · rw [if_neg hin, if_neg (by omega)]

/-- Filling spans sets the cells they hold and leaves every other cell alone. -/
theorem getElem?_fillSpans (pixels : Array UInt8) (colour : UInt8) (spans : List Span)
    (k : Nat) :
    (fillSpans pixels colour spans)[k]?
      = if ∃ span ∈ spans, span.Contains k then pixels[k]?.map fun _ => colour
        else pixels[k]? := by
  induction spans generalizing pixels with
  | nil => simp [fillSpans]
  | cons span rest ih =>
    show (fillSpans (fillRun pixels span.start colour span.length) colour rest)[k]? = _
    rw [ih, getElem?_fillRun]
    by_cases hspan : span.start ≤ k ∧ k < span.start + span.length
    · have hmem : ∃ other ∈ span :: rest, other.Contains k := ⟨span, List.mem_cons_self, hspan⟩
      rw [if_pos hspan, if_pos hmem, Option.map_map]
      exact ite_self _
    · have hmem : (∃ other ∈ span :: rest, other.Contains k) ↔
          ∃ other ∈ rest, other.Contains k := by
        have hspan : ¬ span.Contains k := hspan
        simp [hspan]
      rw [if_neg hspan]
      simp only [hmem]

/-! ### Pixels -/

/-- The pixel at a point of the surface is in the cell of its row and column. -/
theorem pixel?_of_lt {x y : Nat} (hx : x < s.width) (hy : y < s.height) :
    s.pixel? x y = s.pixels[y * s.width + x]? := by
  have hcell : s.cell? x y = some (y * s.width + x) := by
    rw [cell?, if_pos (by omega), Int.toNat_natCast, Int.toNat_natCast]
  rw [pixel?, hcell]
  rfl

/-- There is no pixel off the surface. -/
theorem pixel?_eq_none {x y : Int} (h : ¬ (0 ≤ x ∧ x < s.width ∧ 0 ≤ y ∧ y < s.height)) :
    s.pixel? x y = none := by
  rw [pixel?, cell?, if_neg h]
  rfl

/-- **A pixel after a command** has the colour of the command if that covers it, and else the
one it had. -/
theorem pixel?_draw (s : Surface) (d : Drawing) (x y : Int) :
    (s.draw d).pixel? x y
      = if d.Covers x y then (s.pixel? x y).map fun _ => d.colour else s.pixel? x y := by
  by_cases hin : 0 ≤ x ∧ x < s.width ∧ 0 ≤ y ∧ y < s.height
  · obtain ⟨x, rfl⟩ := Int.eq_ofNat_of_zero_le hin.1
    obtain ⟨y, rfl⟩ := Int.eq_ofNat_of_zero_le hin.2.2.1
    have hx : x < s.width := by omega
    have hy : y < s.height := by omega
    rw [pixel?_of_lt (s := s.draw d) hx hy, pixel?_of_lt hx hy]
    show (fillSpans s.pixels d.colour (d.spans s.width s.height))[y * s.width + x]? = _
    simp only [getElem?_fillSpans, Drawing.exists_mem_spans_iff hx hy]
  · rw [pixel?_eq_none (s := s.draw d) hin, pixel?_eq_none hin]
    split
    · rfl
    · rfl

/-- There is a pixel at every point of the surface. -/
theorem exists_pixel? {x y : Nat} (hx : x < s.width) (hy : y < s.height) :
    ∃ shown, s.pixel? x y = some shown := by
  have hrows : (y + 1) * s.width ≤ s.height * s.width := Nat.mul_le_mul_right s.width hy
  rw [Nat.succ_mul, Nat.mul_comm s.height, ← s.size_pixels] at hrows
  rw [pixel?_of_lt hx hy, Array.getElem?_eq_getElem (by omega)]
  exact ⟨_, rfl⟩

/-- A pixel of the surface after a command. -/
theorem pixel?_draw_of_lt (s : Surface) (d : Drawing) {x y : Nat} (hx : x < s.width)
    (hy : y < s.height) :
    (s.draw d).pixel? x y = if d.Covers x y then some d.colour else s.pixel? x y := by
  obtain ⟨before, hbefore⟩ := exists_pixel? hx hy
  rw [pixel?_draw, hbefore, Option.map_some]

/-- A pixel after commands has the colour of the last of them that covers it, or the one it
had. -/
theorem pixel?_drawAll (s : Surface) (ds : List Drawing) (x y : Int) :
    (s.drawAll ds).pixel? x y = (s.pixel? x y).map (Drawing.paint ds x y) := by
  induction ds generalizing s with
  | nil => exact (Option.map_id' (x := s.pixel? x y)).symm
  | cons d rest ih =>
    show ((s.draw d).drawAll rest).pixel? x y = (s.pixel? x y).map fun before =>
      Drawing.paint rest x y (if d.Covers x y then d.colour else before)
    rw [ih, pixel?_draw]
    by_cases hcovers : d.Covers x y
    · simp only [if_pos hcovers, Option.map_map]
      rfl
    · simp only [if_neg hcovers]

/-! ### Whole surfaces -/

/-- A surface is told by its size and its pixels. -/
theorem ext_pixel? (hwidth : s.width = t.width) (hheight : s.height = t.height)
    (h : ∀ x y : Nat, x < s.width → y < s.height → s.pixel? x y = t.pixel? x y) : s = t := by
  obtain ⟨width, height, pixels, hsize⟩ := s
  obtain ⟨width', height', pixels', hsize'⟩ := t
  obtain rfl : width = width' := hwidth
  obtain rfl : height = height' := hheight
  have hpixels : pixels = pixels' := by
    refine Array.ext_getElem? fun k => ?_
    by_cases hk : k < width * height
    -- the cell of a row and a column
    · have hwidth : 0 < width := Nat.pos_of_mul_pos_right (Nat.zero_lt_of_lt hk)
      have hx : k % width < width := Nat.mod_lt k hwidth
      have hy : k / width < height :=
        (Nat.div_lt_iff_lt_mul hwidth).2 (Nat.mul_comm width height ▸ hk)
      have hcell := h (k % width) (k / width) hx hy
      rwa [pixel?_of_lt hx hy, pixel?_of_lt hx hy, Nat.div_add_mod'] at hcell
    · rw [Array.getElem?_eq_none (hsize ▸ Nat.not_lt.1 hk),
        Array.getElem?_eq_none (hsize' ▸ Nat.not_lt.1 hk)]
  subst hpixels
  rfl

@[simp] theorem width_drawAll (s : Surface) (ds : List Drawing) :
    (s.drawAll ds).width = s.width := by
  induction ds generalizing s with
  | nil => rfl
  | cons d rest ih => exact ih (s.draw d)

@[simp] theorem height_drawAll (s : Surface) (ds : List Drawing) :
    (s.drawAll ds).height = s.height := by
  induction ds generalizing s with
  | nil => rfl
  | cons d rest ih => exact ih (s.draw d)

/-- A command leaves what any commands of its colour leave that cover the points it covers, in
whatever order they stand. -/
theorem draw_eq_drawAll (s : Surface) (d : Drawing) (ds : List Drawing)
    (hcolour : ∀ e ∈ ds, e.colour = d.colour)
    (hcovers : ∀ x y : Int, (∃ e ∈ ds, e.Covers x y) ↔ d.Covers x y) :
    s.draw d = s.drawAll ds := by
  refine ext_pixel? (width_drawAll s ds).symm (height_drawAll s ds).symm fun x y _ _ => ?_
  have hpaint : Drawing.paint ds x y
      = fun before => if d.Covers x y then d.colour else before := by
    funext before
    simp only [Drawing.paint_of_colour hcolour, hcovers]
  rw [pixel?_draw, pixel?_drawAll, hpaint]
  by_cases hd : d.Covers x y
  · simp only [if_pos hd]
  · simp only [if_neg hd]
    exact (Option.map_id' (x := s.pixel? x y)).symm

/-! ### Cropping -/

/-- Two surfaces show the same at every point that is on both of them. -/
def Agree (s t : Surface) : Prop :=
  ∀ x y : Nat, x < s.width → x < t.width → y < s.height → y < t.height →
    s.pixel? x y = t.pixel? x y

/-- Blank surfaces agree, whatever their sizes. -/
theorem agree_blank (width height width' height' : Nat) :
    Agree (blank width height) (blank width' height') := by
  have hblank (width height x y : Nat) (hx : x < width) (hy : y < height) :
      (blank width height).pixel? x y = some 0 := by
    have hrows : (y + 1) * width ≤ height * width := Nat.mul_le_mul_right width hy
    rw [Nat.succ_mul, Nat.mul_comm height] at hrows
    rw [pixel?_of_lt (s := blank width height) hx hy]
    show (Array.replicate (width * height) 0)[y * width + x]? = _
    rw [Array.getElem?_replicate, if_pos (by omega)]
  intro x y hx hx' hy hy'
  exact (hblank _ _ x y hx hy).trans (hblank _ _ x y hx' hy').symm

/-- **Drawing commutes with cropping.**  Surfaces that show the same where they overlap go on
doing so, whatever is drawn on both: a command at any coordinates, clipped to either, leaves
at each point the colour of the last command that covers the point of the plane, or what was
there.  Their sizes stay as they are. -/
theorem agree_drawAll (s t : Surface) (ds : List Drawing) (h : Agree s t) :
    Agree (s.drawAll ds) (t.drawAll ds) ∧
    ((s.drawAll ds).width = s.width ∧ (s.drawAll ds).height = s.height) ∧
    ((t.drawAll ds).width = t.width ∧ (t.drawAll ds).height = t.height) ∧
    ∀ x y : Int, (s.drawAll ds).pixel? x y = (s.pixel? x y).map (Drawing.paint ds x y) ∧
      (t.drawAll ds).pixel? x y = (t.pixel? x y).map (Drawing.paint ds x y) := by
  refine ⟨?_, ⟨width_drawAll s ds, height_drawAll s ds⟩,
    ⟨width_drawAll t ds, height_drawAll t ds⟩,
    fun x y => ⟨pixel?_drawAll s ds x y, pixel?_drawAll t ds x y⟩⟩
  intro x y hx hx' hy hy'
  rw [width_drawAll] at hx hx'
  rw [height_drawAll] at hy hy'
  rw [pixel?_drawAll, pixel?_drawAll, h x y hx hx' hy hy']

/-- Commands that leave a small surface on every side. -/
def overhanging : List Drawing :=
  [.fillRect (-3) 1 20 7 2, .drawRect (-1) (-1) 4 3 5, .drawText (-2) (-1) "A" 7, .pixel 5 0 1]

theorem overhanging_agree : Agree (blank 4 3) (blank 6 2) ∧
    Agree ((blank 4 3).drawAll overhanging) ((blank 6 2).drawAll overhanging) ∧
    ((blank 4 3).drawAll overhanging).pixel? 2 1 = some 7 ∧
    ((blank 6 2).drawAll overhanging).pixel? 3 1 = some 2 := by
  have hblank := agree_blank 4 3 6 2
  obtain ⟨hagree, -, -, hpixels⟩ := agree_drawAll (blank 4 3) (blank 6 2) overhanging hblank
  refine ⟨hblank, hagree, ?_, ?_⟩
  · rw [(hpixels 2 1).1]
    decide
  · rw [(hpixels 3 1).2]
    decide

end Surface

end VirtualPC
