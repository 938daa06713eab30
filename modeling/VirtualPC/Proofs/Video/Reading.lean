/-
VirtualPC/Proofs/Video/Reading.lean

Reading a text off a surface.  The cells of a text, one advance wide each, do not overlap, so
what is inked in a cell is the glyph of the character there, and nothing where the text has
none (`inks_cell_iff`).  The font has a glyph of its own for every character of its alphabet
(`Font.glyph_inj`), so a text in these characters that does not end in a space (`Legible`) can
be read back from its ink: left to right if one knows where it begins, and right to left if
one knows where it ends.

Main results: two such texts of a bounded length that ink the same points are the same, if
they begin at one place (`eq_of_inks_left`) or end at one place (`eq_of_inks_right`).
-/
import VirtualPC.Proofs.Video.Lettering

namespace VirtualPC

/-! ### Glyphs -/

/-- A glyph is told by its dots. -/
theorem Glyph.ext_isLit {g h : Glyph}
    (hdots : ∀ (row : Fin 7) (column : Fin 5), g.isLit row column = h.isLit row column) :
    g = h := by
  refine Vector.ext fun row hrow => BitVec.eq_of_getLsbD_eq fun i hi => ?_
  have hdot := hdots ⟨row, hrow⟩ ⟨4 - i, by omega⟩
  rw [isLit_eq_getLsbD, isLit_eq_getLsbD] at hdot
  simpa only [Nat.sub_sub_self (Nat.le_of_lt_succ hi), Fin.getElem_fin] using hdot

namespace Font

/-- A character of the alphabet is told by its glyph. -/
theorem glyph_inj {c d : Char} (hc : c ∈ alphabet) (hd : d ∈ alphabet) (h : glyph c = glyph d) :
    c = d := by
  have hdistinct : (alphabet.map glyph).Nodup := by decide +kernel
  exact List.inj_on_of_nodup_map hdistinct hc hd h

theorem isLit_glyph_space (row : Fin 7) (column : Fin 5) :
    (glyph ' ').isLit row column = false := by
  revert row column
  decide

end Font

/-! ### Cells -/

/-- The character at a position of a text, with spaces before and behind it. -/
def charAt (chars : List Char) (j : Int) : Char :=
  if 0 ≤ j then chars[j.toNat]?.getD ' ' else ' '

theorem charAt_natCast (chars : List Char) (k : Nat) : charAt chars k = chars[k]?.getD ' ' := by
  rw [charAt, if_pos (Int.natCast_nonneg k), Int.toNat_natCast]

/-- Counted from the end, the characters are those of the reversed text. -/
theorem charAt_from_end (chars : List Char) (k : Nat) :
    charAt chars (chars.length - 1 - k) = chars.reverse[k]?.getD ' ' := by
  by_cases hk : k < chars.length
  · have hposition : ((chars.length : Int) - 1 - k).toNat = chars.length - 1 - k := by omega
    rw [charAt, if_pos (by omega), hposition, List.getElem?_reverse hk]
  · rw [charAt, if_neg (by omega), List.getElem?_eq_none (by rw [List.length_reverse]; omega),
      Option.getD_none]

section Cells

variable {left top : Int} {text : String}

/-- **What is inked in a cell is the glyph of the character there.** -/
theorem inks_cell_iff (j : Int) (row : Fin 7) (column : Fin 5) :
    Inks text left top (left + 6 * j + column) (top + row) ↔
      (Font.glyph (charAt text.toList j)).isLit row column = true := by
  constructor
  · rintro ⟨k, c, row', column', hchar, hdx, hdy, hlit⟩
    have hcolumn := column.isLt
    have hcolumn' := column'.isLt
    -- a cell is wider than a glyph, so the point lies in the cell of one character only
    obtain rfl : j = k := by omega
    obtain rfl : row = row' := Fin.ext (by omega)
    obtain rfl : column = column' := Fin.ext (by omega)
    rw [charAt_natCast, hchar, Glyph.isLit_eq_getLsbD]
    exact hlit
  · intro hlit
    have hne : charAt text.toList j ≠ ' ' := by
      intro hspace
      rw [hspace, Font.isLit_glyph_space] at hlit
      cases hlit
    by_cases hj : 0 ≤ j
    · rw [charAt, if_pos hj] at hlit hne
      rcases hchar : text.toList[j.toNat]? with _ | c
      · rw [hchar] at hne
        exact (hne rfl).elim
      · rw [hchar, Glyph.isLit_eq_getLsbD] at hlit
        exact ⟨j.toNat, c, row, column, hchar, by omega, by omega, hlit⟩
    · rw [charAt, if_neg hj] at hne
      exact (hne rfl).elim

/-- Texts that ink the same points of a cell have the same glyph there, wherever they begin. -/
theorem glyph_eq_of_inks {other : String} {left' : Int} {i j : Int}
    (hcell : left + 6 * i = left' + 6 * j)
    (h : ∀ x y, InRect (left + 6 * i) top 5 7 x y →
      (Inks text left top x y ↔ Inks other left' top x y)) :
    Font.glyph (charAt text.toList i) = Font.glyph (charAt other.toList j) := by
  refine Glyph.ext_isLit fun row column => Bool.eq_iff_iff.2 ?_
  have hcolumn := column.isLt
  have hrow := row.isLt
  have hpoint := h (left + 6 * i + column) (top + row) ⟨by omega, by omega, by omega, by omega⟩
  rw [inks_cell_iff, hcell, inks_cell_iff] at hpoint
  exact hpoint

end Cells

/-! ### Legible texts -/

/-- Characters that can be told by their glyphs, the last of which can be seen. -/
structure Legible (chars : List Char) : Prop where
  known : chars ⊆ Font.alphabet
  visible : chars.getLast? ≠ some ' '

namespace Legible

variable {a b : List Char}

theorem append (ha : a ⊆ Font.alphabet) (hb : Legible b) (hne : b ≠ []) :
    Legible (a ++ b) := by
  refine ⟨List.append_subset.2 ⟨ha, hb.known⟩, ?_⟩
  rw [List.getLast?_append_of_ne_nil a hne]
  exact hb.visible

/-- A character beyond the end of the shorter of two texts tells them apart. -/
theorem length_le (hb : Legible b) (h : ∀ k : Nat, a[k]?.getD ' ' = b[k]?.getD ' ') :
    b.length ≤ a.length := by
  by_contra hlt
  have hlast := h (b.length - 1)
  rw [List.getElem?_eq_none (by omega), Option.getD_none, ← List.getLast?_eq_getElem?] at hlast
  rcases hb' : b.getLast? with _ | c
  · rw [List.getLast?_eq_none_iff.1 hb'] at hlt
    exact hlt (Nat.zero_le _)
  · rw [hb', Option.getD_some] at hlast
    exact hb.visible (hlast ▸ hb')

/-- **A legible text is told by its glyphs.** -/
theorem eq_of_glyphs (ha : Legible a) (hb : Legible b)
    (h : ∀ k : Nat, Font.glyph (a[k]?.getD ' ') = Font.glyph (b[k]?.getD ' ')) : a = b := by
  have hspace : ' ' ∈ Font.alphabet := by decide
  have hknown {chars : List Char} (hchars : Legible chars) (k : Nat) :
      chars[k]?.getD ' ' ∈ Font.alphabet := by
    rcases hchar : chars[k]? with _ | c
    · exact hspace
    · exact hchars.known (List.mem_of_getElem? hchar)
  have hchars (k : Nat) : a[k]?.getD ' ' = b[k]?.getD ' ' :=
    Font.glyph_inj (hknown ha k) (hknown hb k) (h k)
  have hlength := Nat.le_antisymm (hb.length_le hchars)
    (ha.length_le fun k => (hchars k).symm)
  refine List.ext_getElem hlength.symm fun k hk hk' => ?_
  have hchar := hchars k
  rwa [List.getElem?_eq_getElem hk, List.getElem?_eq_getElem hk', Option.getD_some,
    Option.getD_some] at hchar

end Legible

/-! ### Reading -/

section Reading

variable {a b : String} {count : Nat}

/-- Beyond the end of two texts there is nothing to compare. -/
theorem getElem?_getD_of_length_le {chars : List Char} {k : Nat} (hchars : chars.length ≤ count)
    (hk : count ≤ k) : chars[k]?.getD ' ' = ' ' := by
  rw [List.getElem?_eq_none (Nat.le_trans hchars hk), Option.getD_none]

/-- **Left to right**: legible texts that begin at one place and ink the same are the same. -/
theorem eq_of_inks_left (left top : Int) (ha : Legible a.toList) (hb : Legible b.toList)
    (hcount : a.length ≤ count) (hcount' : b.length ≤ count)
    (h : ∀ x y, InRect left top (6 * count) 7 x y →
      (Inks a left top x y ↔ Inks b left top x y)) : a = b := by
  rw [← String.length_toList] at hcount hcount'
  refine String.toList_inj.1 (ha.eq_of_glyphs hb fun k => ?_)
  by_cases hk : k < count
  · rw [← charAt_natCast, ← charAt_natCast]
    refine glyph_eq_of_inks rfl fun x y hin => h x y ?_
    obtain ⟨hleft, hright, hrows⟩ := hin
    exact ⟨by omega, by omega, hrows⟩
  · rw [getElem?_getD_of_length_le hcount (Nat.not_lt.1 hk),
      getElem?_getD_of_length_le hcount' (Nat.not_lt.1 hk)]

/-- **Right to left**: legible texts that end at one place and ink the same are the same. -/
theorem eq_of_inks_right (right top : Int) (ha : Legible a.toList.reverse)
    (hb : Legible b.toList.reverse) (hcount : a.length ≤ count) (hcount' : b.length ≤ count)
    (h : ∀ x y, InRect (right - 6 * count) top (6 * count) 7 x y →
      (Inks a (right - textWidth a) top x y ↔ Inks b (right - textWidth b) top x y)) :
    a = b := by
  have hwidth (text : String) : (textWidth text : Int) = 6 * text.toList.length := by
    rw [textWidth, Font.advance, String.length_toList]
    omega
  rw [← String.length_toList] at hcount hcount'
  refine String.toList_inj.1 (List.reverse_injective (ha.eq_of_glyphs hb fun k => ?_))
  by_cases hk : k < count
  · rw [← charAt_from_end, ← charAt_from_end]
    -- the cells end in one place, so the ones at a distance from the end are the same
    refine glyph_eq_of_inks (by rw [hwidth, hwidth]; omega) fun x y hin => h x y ?_
    obtain ⟨hleft, hright, hrows⟩ := hin
    rw [hwidth] at hleft hright
    exact ⟨by omega, by omega, hrows⟩
  · rw [← List.length_reverse] at hcount hcount'
    rw [getElem?_getD_of_length_le hcount (Nat.not_lt.1 hk),
      getElem?_getD_of_length_le hcount' (Nat.not_lt.1 hk)]

end Reading

end VirtualPC
