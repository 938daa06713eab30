/-
VirtualPC/Proofs/Video/Lettering.lean

Texts point by point.  The characters of a text stand `Font.advance` pixels apart, counted as
characters and not by the bytes they take, and each lights the set bits of its glyph:

    Inks text left top x y    some character of the text, drawn with its top left corner at
                              (left, top), lights the point (x, y)

Nothing else is painted (`covers_drawText_iff`), and nothing is painted outside the box of the
text, which is `textWidth` pixels wide and as high as a glyph.  What a text inks is told by its
glyphs, so characters of one glyph may stand for each other: letters of either case, and blanks
for all characters that the font does not have (`Font.alphabet`).

Main result: drawing a text sets the points that it inks and no others, two texts after one
another are drawn as one, and neither case nor unknown characters matter (`lettering_exact`).
-/
import Mathlib
import VirtualPC.Proofs.Video.Painting

namespace VirtualPC

/-! ### Characters -/

namespace Font

/-- The characters that the font has; all but the space are lit somewhere. -/
def alphabet : List Char := " :.%-/0123456789ABCDEFGHIJKLMNOPQRSTUVWXYZ".toList

/-- A letter of the other ASCII case; any other character stays. -/
def otherCase (c : Char) : Char := if c.isLower then c.toUpper else c.toLower

/-- A space in place of a character that the font has in neither case. -/
def knownOrBlank (c : Char) : Char := if c.toUpper ∈ alphabet then c else ' '

theorem shape_of_not_mem {c : Char} (h : c ∉ alphabet) : shape c = blank := by
  unfold shape
  split
  case h_42 => rfl
  all_goals exact absurd (by decide) h

@[simp] theorem glyph_otherCase (c : Char) : glyph (otherCase c) = glyph c := by
  unfold otherCase glyph
  split
  · rw [Char.toUpper_toUpper_eq_toUpper]
  · rw [Char.toUpper_toLower_eq_toUpper]

@[simp] theorem glyph_knownOrBlank (c : Char) : glyph (knownOrBlank c) = glyph c := by
  unfold knownOrBlank
  split
  · rfl
  · rename_i h
    exact (shape_of_not_mem h).symm

end Font

/-! ### Dots -/

theorem Glyph.mem_litDots_iff {g : Glyph} {dot : Nat × Nat} :
    dot ∈ g.litDots ↔ dot.1 < Font.glyphHeight ∧ dot.2 < Font.glyphWidth ∧
      g.isLit dot.1 dot.2 = true := by
  obtain ⟨row, column⟩ := dot
  simp [litDots]

/-- The leftmost column is the highest bit of a row. -/
theorem Glyph.isLit_eq_getLsbD (g : Glyph) (row : Fin 7) (column : Fin 5) :
    g.isLit row column = g[row].getLsbD (4 - column) := by
  have hrow : g[(row : Nat)]? = some g[row] := Vector.getElem?_eq_getElem row.isLt
  have hcolumn : (column : Nat) < 5 := column.isLt
  rw [isLit, hrow]
  show g[row].getMsbD column = _
  rw [BitVec.getMsbD_eq_getLsbD, decide_eq_true hcolumn, Bool.true_and]

/-- A glyph lights the points at the distance of its set bits. -/
theorem Glyph.lights_iff {g : Glyph} {dx dy : Int} :
    g.Lights dx dy ↔ ∃ (row : Fin 7) (column : Fin 5), dx = column ∧ dy = row ∧
      g[row].getLsbD (4 - column) = true := by
  constructor
  · rintro ⟨⟨row, column⟩, hdot, hdx, hdy⟩
    obtain ⟨hrow, hcolumn, hlit⟩ := mem_litDots_iff.1 hdot
    refine ⟨⟨row, hrow⟩, ⟨column, hcolumn⟩, hdx, hdy, ?_⟩
    rw [← isLit_eq_getLsbD]
    exact hlit
  · rintro ⟨row, column, hdx, hdy, hlit⟩
    rw [← isLit_eq_getLsbD] at hlit
    exact ⟨(row, column), mem_litDots_iff.2 ⟨row.isLt, column.isLt, hlit⟩, hdx, hdy⟩

/-! ### Texts -/

/-- Some character of a text, drawn with its top left corner at the given one, lights a point:
the point lies in a column and a row of the glyph where a bit is set. -/
def Inks (text : String) (left top x y : Int) : Prop :=
  ∃ (k : Nat) (c : Char) (row : Fin 7) (column : Fin 5), text.toList[k]? = some c ∧
    x - (left + 6 * k) = column ∧ y - top = row ∧
    (Font.glyph c)[row].getLsbD (4 - column) = true

namespace Drawing

variable {left top x y : Int} {text rest : String} {colour : UInt8}

/-- **A text covers the points that it inks.** -/
theorem covers_drawText_iff :
    (drawText left top text colour).Covers x y ↔ Inks text left top x y := by
  constructor
  · rintro ⟨⟨c, k⟩, hentry, hlights⟩
    obtain ⟨row, column, hdx, hdy, hlit⟩ := Glyph.lights_iff.1 hlights
    exact ⟨k, c, row, column, List.mem_zipIdx_iff_getElem?.1 hentry, hdx, hdy, hlit⟩
  · rintro ⟨k, c, row, column, hchar, hdx, hdy, hlit⟩
    exact ⟨(c, k), List.mem_zipIdx_iff_getElem?.2 hchar,
      Glyph.lights_iff.2 ⟨row, column, hdx, hdy, hlit⟩⟩

end Drawing

instance (text : String) (left top x y : Int) : Decidable (Inks text left top x y) :=
  decidable_of_iff ((Drawing.drawText left top text 0).Covers x y) Drawing.covers_drawText_iff

namespace Inks

variable {left top x y : Int} {text rest other : String}

/-- A text inks nothing outside its box. -/
theorem inRect (h : Inks text left top x y) : InRect left top (textWidth text) 7 x y := by
  obtain ⟨k, c, row, column, hchar, hdx, hdy, -⟩ := h
  have hk : k < text.length := by
    rw [← String.length_toList]
    exact (List.getElem?_eq_some_iff.1 hchar).1
  have hcolumn : (column : Nat) < 5 := column.isLt
  have hrow : (row : Nat) < 7 := row.isLt
  simp only [InRect, textWidth, Font.advance]
  omega

/-- A text inks what its beginning does, and what its end does behind that. -/
theorem append_iff : Inks (text ++ rest) left top x y ↔
    Inks text left top x y ∨ Inks rest (left + textWidth text) top x y := by
  have hlength : (text.length : Int) = text.toList.length := by rw [String.length_toList]
  simp only [Inks, textWidth, Font.advance, String.toList_append]
  constructor
  · rintro ⟨k, c, row, column, hchar, hdx, hdy, hlit⟩
    by_cases hk : k < text.toList.length
    · rw [List.getElem?_append_left hk] at hchar
      exact .inl ⟨k, c, row, column, hchar, hdx, hdy, hlit⟩
    · rw [List.getElem?_append_right (Nat.not_lt.1 hk)] at hchar
      exact .inr ⟨_, c, row, column, hchar, by omega, hdy, hlit⟩
  · rintro (⟨k, c, row, column, hchar, hdx, hdy, hlit⟩ |
      ⟨k, c, row, column, hchar, hdx, hdy, hlit⟩)
    · refine ⟨k, c, row, column, ?_, hdx, hdy, hlit⟩
      rw [List.getElem?_append_left (List.getElem?_eq_some_iff.1 hchar).1, hchar]
    · refine ⟨text.toList.length + k, c, row, column, ?_, by omega, hdy, hlit⟩
      rw [List.getElem?_append_right (Nat.le_add_right _ _), Nat.add_sub_cancel_left, hchar]

/-- What a text inks is told by its glyphs. -/
theorem of_glyphs (hsame : text.toList.map Font.glyph = other.toList.map Font.glyph)
    (h : Inks text left top x y) : Inks other left top x y := by
  obtain ⟨k, c, row, column, hchar, hdx, hdy, hlit⟩ := h
  have hglyph := congrArg (·[k]?) hsame
  simp only [List.getElem?_map, hchar, Option.map_some] at hglyph
  obtain ⟨d, hother, hd⟩ := Option.map_eq_some_iff.1 hglyph.symm
  exact ⟨k, d, row, column, hother, hdx, hdy, hd ▸ hlit⟩

end Inks

theorem Drawing.inRect_of_covers {left top x y : Int} {text : String} {colour : UInt8}
    (h : (Drawing.drawText left top text colour).Covers x y) :
    InRect left top (textWidth text) 7 x y :=
  (Drawing.covers_drawText_iff.1 h).inRect

namespace Surface

variable {left top : Int} {text other : String} {colour : UInt8}

/-- Texts of the same glyphs are drawn alike. -/
theorem draw_drawText_congr (s : Surface)
    (h : text.toList.map Font.glyph = other.toList.map Font.glyph) :
    s.draw (.drawText left top text colour) = s.draw (.drawText left top other colour) := by
  refine draw_eq_drawAll s _ [.drawText left top other colour] ?_ fun x y => ?_
  · simp [Drawing.colour]
  · simp only [List.mem_singleton, exists_eq_left, Drawing.covers_drawText_iff]
    exact ⟨Inks.of_glyphs h.symm, Inks.of_glyphs h⟩

/-- **Lettering is exact.**  On a surface of any size, at any place and in any colour, a text
sets the points that it inks, and leaves all others as they were, those outside its box among
them.  A text and another behind it, at the distance of its width, are drawn as the two in
one.  A text is drawn as it is with all letters in the other case, and as it is with a space
for every character that the font does not have. -/
theorem lettering_exact (s : Surface) (left top : Int) (text rest : String) (colour : UInt8) :
    s.draw (.drawText left top (text ++ rest) colour)
      = (s.draw (.drawText left top text colour)).draw
          (.drawText (left + textWidth text) top rest colour) ∧
    (∀ x y : Nat, x < s.width → y < s.height →
      (Inks text left top x y →
        (s.draw (.drawText left top text colour)).pixel? x y = some colour) ∧
      (¬ Inks text left top x y →
        (s.draw (.drawText left top text colour)).pixel? x y = s.pixel? x y)) ∧
    (∀ x y : Int, ¬ (left ≤ x ∧ x < left + textWidth text ∧ top ≤ y ∧ y < top + 7) →
      (s.draw (.drawText left top text colour)).pixel? x y = s.pixel? x y) ∧
    s.draw (.drawText left top (text.map Font.otherCase) colour)
      = s.draw (.drawText left top text colour) ∧
    s.draw (.drawText left top (text.map Font.knownOrBlank) colour)
      = s.draw (.drawText left top text colour) := by
  refine ⟨?_, fun x y hx hy => ⟨fun hinks => ?_, fun hinks => ?_⟩, fun x y hout => ?_, ?_, ?_⟩
  · refine draw_eq_drawAll s _ [.drawText left top text colour,
      .drawText (left + textWidth text) top rest colour] ?_ fun x y => ?_
    · simp [Drawing.colour]
    · simp only [List.mem_cons, List.not_mem_nil, or_false, exists_eq_or_imp, exists_eq_left,
        Drawing.covers_drawText_iff, Inks.append_iff]
  · rw [pixel?_draw_of_lt s _ hx hy, if_pos (Drawing.covers_drawText_iff.2 hinks)]
    rfl
  · rw [pixel?_draw, if_neg (mt Drawing.covers_drawText_iff.1 hinks)]
  · rw [pixel?_draw, if_neg fun hcovers => hout (Drawing.inRect_of_covers hcovers)]
  · refine draw_drawText_congr s ?_
    simp [String.toList_map, Function.comp_def]
  · refine draw_drawText_congr s ?_
    simp [String.toList_map, Function.comp_def]

/-- A text that begins off the surface with a character that the font does not have, and that
takes two bytes. -/
theorem accented_lettering_drawn :
    ((blank 8 7).draw (.drawText (-4) 0 "é1" 5)).pixel? 4 0 = some 5 ∧
    ((blank 8 7).draw (.drawText (-4) 0 "é1" 5)).pixel? 2 0 = some 0 := by
  obtain ⟨-, hpoints, -⟩ := lettering_exact (blank 8 7) (-4) 0 "é1" "" 5
  refine ⟨?_, ?_⟩
  · exact (hpoints 4 0 (by decide) (by decide)).1 (by decide +kernel)
  · exact (hpoints 2 0 (by decide) (by decide)).2 (by decide +kernel)

end Surface

end VirtualPC
