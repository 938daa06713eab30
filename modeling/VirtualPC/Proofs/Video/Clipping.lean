/-
VirtualPC/Proofs/Video/Clipping.lean

Clipping keeps to the pixel buffer.  A row of a surface ends before the next one begins, and the
last one where the buffer does, so a run that stays in its row and has a row of the surface to
stay in lies inside the buffer (`Span.inside_row`); and no two points of the surface share a
cell (`cell?_inj`).

Main result: every span of every command lies inside the buffer, at any coordinates and on a
surface of any size (`inside_of_mem_spans`).  So filling the spans of a command drops nothing.
-/
import VirtualPC.Proofs.Video.Painting

namespace VirtualPC

/-- A span lies inside a buffer of the given size. -/
def Span.Inside (s : Span) (size : Nat) : Prop := s.start + s.length ≤ size

variable {width height row left count : Nat}

/-- A run inside a row of the surface lies inside the buffer. -/
theorem Span.inside_row (hrow : row < height) (hfits : left + count ≤ width) :
    Span.Inside ⟨row * width + left, count⟩ (width * height) := by
  have hrows : (row + 1) * width ≤ height * width := Nat.mul_le_mul_right width hrow
  rw [Nat.succ_mul, Nat.mul_comm height] at hrows
  show row * width + left + count ≤ width * height
  omega

/-- The cell of a point of the surface is one of the buffer. -/
theorem cell_lt_area {x y : Int} (hin : 0 ≤ x ∧ x < width ∧ 0 ≤ y ∧ y < height) :
    y.toNat * width + x.toNat < width * height := by
  have hrun : Span.Inside ⟨y.toNat * width + x.toNat, 1⟩ (width * height) :=
    Span.inside_row (by omega) (by omega)
  exact hrun

namespace Drawing

variable {x y w h : Int} {span : Span}

/-! ### Spans -/

theorem inside_of_mem_pixelSpans (hspan : span ∈ pixelSpans width height x y) :
    span.Inside (width * height) := by
  unfold pixelSpans at hspan
  split at hspan
  · rename_i hin
    obtain rfl := List.mem_singleton.1 hspan
    exact cell_lt_area hin
  · cases hspan

theorem inside_of_mem_rectSpans (hspan : span ∈ rectSpans width height x y w h) :
    span.Inside (width * height) := by
  simp only [rectSpans] at hspan
  split at hspan
  · obtain ⟨row, hrow, rfl⟩ := List.mem_map.1 hspan
    rw [List.mem_range'_1] at hrow
    exact Span.inside_row (by omega) (by omega)
  · cases hspan

theorem inside_of_mem_outlineSpans (hspan : span ∈ outlineSpans width height x y w h) :
    span.Inside (width * height) := by
  unfold outlineSpans at hspan
  split at hspan
  · cases hspan
  · simp only [List.mem_append] at hspan
    rcases hspan with ((htop | hbottom) | hleft) | hright
    · exact inside_of_mem_rectSpans htop
    · exact inside_of_mem_rectSpans hbottom
    · exact inside_of_mem_rectSpans hleft
    · exact inside_of_mem_rectSpans hright

theorem inside_of_mem_textSpans {chars : List Char}
    (hspan : span ∈ textSpans width height x y chars) : span.Inside (width * height) := by
  induction chars generalizing x with
  | nil => cases hspan
  | cons c rest ih =>
    rcases List.mem_append.1 hspan with hglyph | hrest
    · obtain ⟨dot, -, hdot⟩ := List.mem_flatMap.1 hglyph
      exact inside_of_mem_pixelSpans hdot
    · exact ih hrest

/-- **Clipping keeps to the buffer.** -/
theorem inside_of_mem_spans {d : Drawing} (hspan : span ∈ d.spans width height) :
    span.Inside (width * height) := by
  cases d with
  | clear colour =>
    obtain rfl := List.mem_singleton.1 hspan
    exact Nat.le_of_eq (Nat.zero_add _)
  | pixel x y colour => exact inside_of_mem_pixelSpans hspan
  | fillRect x y w h colour => exact inside_of_mem_rectSpans hspan
  | drawRect x y w h colour => exact inside_of_mem_outlineSpans hspan
  | drawText x y text colour => exact inside_of_mem_textSpans hspan

end Drawing

namespace Surface

variable {s : Surface} {x y x' y' : Int} {cell : Nat}

/-! ### Cells -/

theorem cell?_eq_some_iff : s.cell? x y = some cell ↔
    (0 ≤ x ∧ x < s.width ∧ 0 ≤ y ∧ y < s.height) ∧ y.toNat * s.width + x.toNat = cell := by
  unfold cell?
  split
  · rename_i hin
    simp only [Option.some.injEq, hin, true_and]
  · rename_i hout
    simp only [reduceCtorEq, hout, false_and]

theorem lt_of_cell? (h : s.cell? x y = some cell) : cell < s.width * s.height := by
  obtain ⟨hin, rfl⟩ := cell?_eq_some_iff.1 h
  exact cell_lt_area hin

/-- **Points of the surface have cells of their own.** -/
theorem cell?_inj (h : s.cell? x y = some cell) (h' : s.cell? x' y' = some cell) :
    x = x' ∧ y = y' := by
  obtain ⟨hin, rfl⟩ := cell?_eq_some_iff.1 h
  obtain ⟨hin', hcell⟩ := cell?_eq_some_iff.1 h'
  -- the cell of the second point is the run of one cell at the first
  have hrun : Span.Contains ⟨y.toNat * s.width + x.toNat, 1⟩ (y'.toNat * s.width + x'.toNat) :=
    ⟨Nat.le_of_eq hcell.symm, Nat.lt_succ_of_le (Nat.le_of_eq hcell)⟩
  rw [Span.contains_row_iff y.toNat x.toNat 1 y'.toNat (by omega) (by omega)] at hrun
  omega

end Surface

end VirtualPC
