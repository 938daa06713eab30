/-
VirtualPC/Proofs/Machine/StatusScreen.lean

What the status screen tells.  Its texts are drawn over plain areas that nothing drawn later
touches: the uptime over the title bar, right-aligned, and the lines over the panel, eight
pixels apart.  There a pixel has the colour of text exactly if the text inks it
(`paint_uptime`, `paint_line`), so two screens that look the same have the same texts, and the
texts tell the numbers: sizes and counts have at most twenty digits, so no line comes near the
right edge of a screen that is 256 pixels wide, and the uptime stays clear of the title.

Main result: two statuses with programs of one name look the same exactly if they agree in
registers and sizes and in whole seconds of uptime, whatever the surfaces showed before
(`drawStatus_eq_iff`).
-/
import VirtualPC.Machine.Status
import VirtualPC.Proofs.Text.Digits
import VirtualPC.Proofs.Video.Reading

namespace VirtualPC

open Text

namespace Status

variable {s t : Status} {w h x y : Int} {before : UInt8}

/-- The numbers of a status are no wider than sizes and counts are. -/
structure Fits (s : Status) : Prop where
  ram : s.ramSize < sizeLimit
  rom : s.romLength < sizeLimit
  ticks : s.ticks < sizeLimit

/-! ### Numerals on the screen -/

theorem hexAlphabet_subset : hexAlphabet ⊆ Font.alphabet := by decide

theorem toString_subset (n : Nat) : (toString n).toList ⊆ Font.alphabet := by
  intro c hc
  have hdigits : ∀ code < 58, 48 ≤ code → Char.ofNat code ∈ Font.alphabet := by decide
  have hrange : 48 ≤ c.toNat ∧ c.toNat ≤ 57 :=
    Char.isDigit_iff_toNat.1 (isDigit_of_mem_toString hc)
  have hmem := hdigits c.toNat (by omega) hrange.1
  rwa [Char.ofNat_toNat] at hmem

/-- A size or a count has at most twenty digits. -/
theorem length_toString_of_lt {n : Nat} (hn : n < sizeLimit) : (toString n).length ≤ 20 :=
  length_toString_le (by decide) (Nat.lt_trans hn (by decide))

theorem legible_hexDigits (n count : Nat) : Legible (hexDigits n count) where
  known _ hc := hexAlphabet_subset (mem_hexDigits hc)
  visible hlast := absurd (mem_hexDigits (List.mem_of_getLast? hlast)) (by decide)

/-- A line that ends in a hexadecimal numeral. -/
theorem legible_hexLine {label : String} (hlabel : label.toList ⊆ Font.alphabet) (n count : Nat) :
    Legible (label ++ String.ofList (hexDigits n (count + 1))).toList := by
  rw [String.toList_append, String.toList_ofList]
  exact .append hlabel (legible_hexDigits n (count + 1)) (List.cons_ne_nil _ _)

/-- A line with a decimal numeral and the unit of sizes. -/
theorem legible_unitLine {label : String} (hlabel : label.toList ⊆ Font.alphabet) (n : Nat) :
    Legible (label ++ toString n ++ " B").toList := by
  have hunit : Legible " B".toList := ⟨by decide, by decide⟩
  rw [String.toList_append, String.toList_append]
  exact .append (List.append_subset.2 ⟨hlabel, toString_subset n⟩) hunit (by decide)

theorem length_unitLine_le {label : String} {n : Nat} (hlabel : label.length = 7)
    (hn : n < sizeLimit) : (label ++ toString n ++ " B").length ≤ 29 := by
  have hdigits := length_toString_of_lt hn
  have hunit : " B".length = 2 := by decide
  rw [String.length_append, String.length_append]
  omega

theorem legible_uptime (s : Status) : Legible s.uptime.toList.reverse := by
  have hreverse : s.uptime.toList.reverse
      = ('S' :: (toString (s.ticks / ticksPerSecond)).toList.reverse) ++ [' ', 'P', 'U'] := by
    simp [uptime]
  rw [hreverse]
  refine .append (List.cons_subset.2 ⟨by decide, ?_⟩) ⟨by decide, by decide⟩ (by decide)
  exact fun c hc => toString_subset _ (List.mem_reverse.1 hc)

theorem length_uptime_le (hs : s.Fits) : s.uptime.length ≤ 24 := by
  have hseconds : s.ticks / ticksPerSecond < sizeLimit :=
    Nat.lt_of_le_of_lt (Nat.div_le_self _ _) hs.ticks
  have hdigits := length_toString_of_lt hseconds
  have hprefix : "UP ".length = 3 := by decide
  have hunit : "S".length = 1 := by decide
  rw [uptime, String.length_append, String.length_append]
  omega

/-! ### Where the texts stand -/

/-- The uptime is right-aligned on every screen that is wide enough. -/
theorem uptimeLeft_eq (hs : s.Fits) (hw : 256 ≤ w) :
    s.uptimeLeft w = w - 3 - textWidth s.uptime := by
  have hlength := length_uptime_le hs
  rw [uptimeLeft, textWidth, Font.advance]
  omega

/-- Right of the title and inside its border, the title bar is plain. -/
theorem paint_bar {titles : List Drawing}
    (htitles : ∀ d ∈ titles, d = .drawText 3 2 title Palette.text)
    (hin : InRect 51 1 (w - 52) 8 x y) :
    Drawing.paint ([.fillRect 0 0 w 10 Palette.panel,
        .drawRect 0 0 w 10 Palette.windowBorder] ++ titles) x y before = Palette.panel := by
  obtain ⟨hleft, hright, htop, hbottom⟩ := hin
  have hbar : (Drawing.fillRect 0 0 w 10 Palette.panel).Covers x y :=
    ⟨by omega, by omega, by omega, by omega⟩
  have hborder : ¬ (Drawing.drawRect 0 0 w 10 Palette.windowBorder).Covers x y := by
    rintro ⟨-, hrim⟩
    omega
  have hnone : ∀ d ∈ titles, ¬ d.Covers x y := by
    intro d hd hcovers
    rw [htitles d hd] at hcovers
    have hend : x < 3 + 48 := (Drawing.inRect_of_covers hcovers).2.1
    omega
  rw [Drawing.paint_append, Drawing.paint_cons_of_covers hbar,
    Drawing.paint_cons_of_not_covers hborder, Drawing.paint_of_not_covers hnone]
  rfl

/-- The register panel lies below the title bar. -/
theorem le_of_panel_covers {d : Drawing} (hd : d ∈ s.panel w h) (hcovers : d.Covers x y) :
    16 ≤ y := by
  rw [panel, List.mem_append] at hd
  rcases hd with hd | hd
  · simp only [List.mem_cons, List.not_mem_nil, or_false] at hd
    rcases hd with rfl | rfl | rfl | rfl
    · exact hcovers.2.2.1
    · exact hcovers.1.2.2.1
    · exact hcovers.2.2.1
    · exact Int.le_trans (by decide) (Drawing.inRect_of_covers hcovers).2.2.1
  · obtain ⟨⟨line, row⟩, -, rfl⟩ := List.mem_map.1 hd
    have htop : 32 + 8 * (row : Int) ≤ y := (Drawing.inRect_of_covers hcovers).2.2.1
    omega

/-- **The uptime stands out from the title bar**, and nothing is drawn over it. -/
theorem paint_uptime (hs : s.Fits) (hw : 256 ≤ w)
    (hin : InRect (w - 3 - 6 * (24 : Nat)) 2 (6 * (24 : Nat)) 7 x y) :
    Drawing.paint (s.drawings w h) x y before
      = if Inks s.uptime (w - 3 - textWidth s.uptime) 2 x y then Palette.text
        else Palette.panel := by
  obtain ⟨hleft, hright, htop, hbottom⟩ := hin
  have hpanel : ∀ d ∈ s.panel w h, ¬ d.Covers x y := by
    intro d hd hcovers
    have hbelow := le_of_panel_covers hd hcovers
    omega
  have htitles : ∀ d ∈ (if (textWidth title : Int) < s.uptimeLeft w - 9 then
      [Drawing.drawText 3 2 title Palette.text] else []), d = .drawText 3 2 title Palette.text := by
    intro d hd
    split at hd
    · exact List.mem_singleton.1 hd
    · cases hd
  have hclear : (Drawing.clear Palette.background).Covers x y := trivial
  -- the longest uptime begins well behind the title
  have hplain : InRect 51 1 (w - 52) 8 x y := ⟨by omega, by omega, by omega, by omega⟩
  rw [drawings, titleBar, Drawing.paint_cons_of_covers hclear, Drawing.paint_append,
    Drawing.paint_of_not_covers hpanel, Drawing.paint_append, paint_bar htitles hplain,
    uptimeLeft_eq hs hw]
  by_cases hinks : Inks s.uptime (w - 3 - textWidth s.uptime) 2 x y
  · rw [if_pos hinks, Drawing.paint_cons_of_covers (Drawing.covers_drawText_iff.2 hinks)]
    rfl
  · rw [if_neg hinks,
      Drawing.paint_cons_of_not_covers (mt Drawing.covers_drawText_iff.1 hinks)]
    rfl

/-- Below its heading and inside its border, the panel is plain. -/
theorem paint_ground (hin : InRect 9 26 (w - 18) (h - 35) x y) :
    Drawing.paint [.fillRect 8 16 (w - 16) (h - 24) Palette.window,
        .drawRect 8 16 (w - 16) (h - 24) Palette.windowBorder,
        .fillRect 8 16 (w - 16) 10 Palette.accent,
        .drawText 11 18 "PRIMARY OS" Palette.text] x y before = Palette.window := by
  obtain ⟨hleft, hright, htop, hbottom⟩ := hin
  have hfill : (Drawing.fillRect 8 16 (w - 16) (h - 24) Palette.window).Covers x y :=
    ⟨by omega, by omega, by omega, by omega⟩
  have hborder : ¬ (Drawing.drawRect 8 16 (w - 16) (h - 24) Palette.windowBorder).Covers x y := by
    rintro ⟨-, hrim⟩
    omega
  have haccent : ¬ (Drawing.fillRect 8 16 (w - 16) 10 Palette.accent).Covers x y := by
    rintro ⟨-, -, -, hend⟩
    omega
  have hheading : ¬ (Drawing.drawText 11 18 "PRIMARY OS" Palette.text).Covers x y := by
    intro hcovers
    have hend : y < 18 + 7 := (Drawing.inRect_of_covers hcovers).2.2.2
    omega
  rw [Drawing.paint_cons_of_covers hfill, Drawing.paint_cons_of_not_covers hborder,
    Drawing.paint_cons_of_not_covers haccent, Drawing.paint_cons_of_not_covers hheading]
  rfl

/-- Lines stand in rows of their own, so in the rows of one no other comes into question. -/
theorem exists_line_covers_iff {lines : List String} {i : Nat} {line : String}
    (hline : lines[i]? = some line) (htop : 32 + 8 * i ≤ y) (hbottom : y < 32 + 8 * i + 7) :
    (∃ d ∈ lines.zipIdx.map fun (line, row) =>
        Drawing.drawText 14 (32 + 8 * row) line Palette.text, d.Covers x y) ↔
      Inks line 14 (32 + 8 * i) x y := by
  constructor
  · rintro ⟨d, hd, hcovers⟩
    obtain ⟨⟨other, row⟩, hentry, rfl⟩ := List.mem_map.1 hd
    obtain ⟨-, -, htop', hbottom'⟩ := Drawing.inRect_of_covers hcovers
    obtain rfl : row = i := by omega
    rw [List.mem_zipIdx_iff_getElem?, hline] at hentry
    rw [Option.some.inj hentry]
    exact Drawing.covers_drawText_iff.1 hcovers
  · intro hinks
    exact ⟨_, List.mem_map.2 ⟨(line, i), List.mem_zipIdx_iff_getElem?.2 hline, rfl⟩,
      Drawing.covers_drawText_iff.2 hinks⟩

/-- **A line stands out from the panel.** -/
theorem paint_line (hw : 256 ≤ w) (hh : 128 ≤ h) {i : Nat} {line : String}
    (hline : s.panelLines[i]? = some line)
    (hin : InRect 14 (32 + 8 * i) (6 * (29 : Nat)) 7 x y) :
    Drawing.paint (s.drawings w h) x y before
      = if Inks line 14 (32 + 8 * i) x y then Palette.text else Palette.window := by
  obtain ⟨hleft, hright, htop, hbottom⟩ := hin
  have hi : i < 6 := (List.getElem?_eq_some_iff.1 hline).1
  have hplain : InRect 9 26 (w - 18) (h - 35) x y :=
    ⟨by omega, by omega, by omega, by omega⟩
  have hclear : (Drawing.clear Palette.background).Covers x y := trivial
  have hcolour : ∀ d ∈ s.panelLines.zipIdx.map fun (line, row) =>
      Drawing.drawText 14 (32 + 8 * row) line Palette.text, d.colour = Palette.text := by
    intro d hd
    obtain ⟨entry, -, rfl⟩ := List.mem_map.1 hd
    rfl
  rw [drawings, Drawing.paint_cons_of_covers hclear, Drawing.paint_append, panel,
    Drawing.paint_append, paint_ground hplain, Drawing.paint_of_colour hcolour]
  simp only [exists_line_covers_iff hline htop hbottom]

/-! ### Screens that look the same -/

/-- Of two colours, the choices agree if the outcomes do. -/
theorem iff_of_ite_eq {p q : Prop} [Decidable p] [Decidable q] {c d : UInt8} (hne : c ≠ d)
    (h : (if p then c else d) = if q then c else d) : p ↔ q := by
  by_cases hp : p
  · by_cases hq : q
    · exact iff_of_true hp hq
    · rw [if_pos hp, if_neg hq] at h
      exact (hne h).elim
  · by_cases hq : q
    · rw [if_neg hp, if_pos hq] at h
      exact (hne h.symm).elim
    · exact iff_of_false hp hq

/-- Two statuses look the same on screens of the given size, whatever these showed before. -/
def LooksLike (w h : Int) (s t : Status) : Prop :=
  ∀ x y : Int, 0 ≤ x → x < w → 0 ≤ y → y < h → ∃ before before' : UInt8,
    Drawing.paint (s.drawings w h) x y before = Drawing.paint (t.drawings w h) x y before'

namespace LooksLike

/-- Statuses that look the same have the same lines, as far as these can be read. -/
theorem line_eq (hlike : LooksLike w h s t) (hw : 256 ≤ w) (hh : 128 ≤ h) (i : Nat)
    {a b : String} (ha : s.panelLines[i]? = some a) (hb : t.panelLines[i]? = some b)
    (hlegible : Legible a.toList) (hlegible' : Legible b.toList)
    (hlength : a.length ≤ 29) (hlength' : b.length ≤ 29) : a = b := by
  have hi : i < 6 := (List.getElem?_eq_some_iff.1 ha).1
  refine eq_of_inks_left 14 (32 + 8 * i) hlegible hlegible' hlength hlength' ?_
  intro x y hin
  obtain ⟨hleft, hright, htop, hbottom⟩ := id hin
  obtain ⟨before, before', hpaint⟩ :=
    hlike x y (by omega) (by omega) (by omega) (by omega)
  rw [paint_line hw hh ha hin, paint_line hw hh hb hin] at hpaint
  exact iff_of_ite_eq (by decide) hpaint

/-- Statuses that look the same show the same uptime. -/
theorem uptime_eq (hlike : LooksLike w h s t) (hw : 256 ≤ w) (hh : 128 ≤ h) (hs : s.Fits)
    (ht : t.Fits) : s.uptime = t.uptime := by
  refine eq_of_inks_right (w - 3) 2 (legible_uptime s) (legible_uptime t)
    (length_uptime_le hs) (length_uptime_le ht) ?_
  intro x y hin
  obtain ⟨hleft, hright, htop, hbottom⟩ := id hin
  obtain ⟨before, before', hpaint⟩ :=
    hlike x y (by omega) (by omega) (by omega) (by omega)
  rw [paint_uptime hs hw hin, paint_uptime ht hw hin] at hpaint
  exact iff_of_ite_eq (by decide) hpaint

/-- A hexadecimal numeral is read off its line. -/
theorem hex_eq (hlike : LooksLike w h s t) (hw : 256 ≤ w) (hh : 128 ≤ h) (i : Nat)
    (label : String) {m n count : Nat}
    (hm : s.panelLines[i]? = some (label ++ String.ofList (hexDigits m (count + 1))))
    (hn : t.panelLines[i]? = some (label ++ String.ofList (hexDigits n (count + 1))))
    (hlabel : label.toList ⊆ Font.alphabet) (hlength : label.length + count < 29) :
    String.ofList (hexDigits m (count + 1)) = String.ofList (hexDigits n (count + 1)) := by
  have hshort (k : Nat) : (label ++ String.ofList (hexDigits k (count + 1))).length ≤ 29 := by
    rw [String.length_append, String.length_ofList, length_hexDigits]
    exact hlength
  have hline := hlike.line_eq hw hh i hm hn (legible_hexLine hlabel m count)
    (legible_hexLine hlabel n count) (hshort m) (hshort n)
  exact (String.append_right_inj label).1 hline

/-- A size is read off its line. -/
theorem size_eq (hlike : LooksLike w h s t) (hw : 256 ≤ w) (hh : 128 ≤ h) (i : Nat)
    (label : String) {m n : Nat}
    (hm : s.panelLines[i]? = some (label ++ toString m ++ " B"))
    (hn : t.panelLines[i]? = some (label ++ toString n ++ " B"))
    (hlabel : label.toList ⊆ Font.alphabet) (hlength : label.length = 7)
    (hmfits : m < sizeLimit) (hnfits : n < sizeLimit) : m = n := by
  have hline := hlike.line_eq hw hh i hm hn (legible_unitLine hlabel m)
    (legible_unitLine hlabel n) (length_unitLine_le hlength hmfits)
    (length_unitLine_le hlength hnfits)
  rw [String.append_left_inj, String.append_right_inj] at hline
  exact toString_nat_injective hline

/-- The state is read off its line. -/
theorem halted_eq (hlike : LooksLike w h s t) (hw : 256 ≤ w) (hh : 128 ≤ h) :
    s.halted = t.halted := by
  have hlegible (halted : Bool) :
      Legible ("STATE  " ++ if halted then "HALT" else "RUN").toList ∧
      ("STATE  " ++ if halted then "HALT" else "RUN").length ≤ 29 := by
    cases halted
    · exact ⟨⟨by decide, by decide⟩, by decide⟩
    · exact ⟨⟨by decide, by decide⟩, by decide⟩
  have hline := hlike.line_eq hw hh 2 rfl rfl (hlegible s.halted).1 (hlegible t.halted).1
    (hlegible s.halted).2 (hlegible t.halted).2
  have hstate : (if s.halted then "HALT" else "RUN") = if t.halted then "HALT" else "RUN" :=
    (String.append_right_inj "STATE  ").1 hline
  revert hstate
  cases s.halted <;> cases t.halted <;> decide

/-- **What looks the same is the same**, as far as a status is shown in numbers. -/
theorem fields_eq (hlike : LooksLike w h s t) (hw : 256 ≤ w) (hh : 128 ≤ h) (hs : s.Fits)
    (ht : t.Fits) :
    s.pc = t.pc ∧ s.acc = t.acc ∧ s.halted = t.halted ∧ s.ramSize = t.ramSize ∧
    s.romLength = t.romLength ∧ s.ticks / ticksPerSecond = t.ticks / ticksPerSecond := by
  have huptime := hlike.uptime_eq hw hh hs ht
  rw [uptime, uptime, String.append_left_inj, String.append_right_inj] at huptime
  refine ⟨?_, ?_, hlike.halted_eq hw hh, ?_, ?_, toString_nat_injective huptime⟩
  · exact hexWord_injective (hlike.hex_eq hw hh 0 "CPU PC " rfl rfl (by decide) (by decide))
  · exact hexByte_injective (hlike.hex_eq hw hh 1 "CPU A  " rfl rfl (by decide) (by decide))
  · exact hlike.size_eq hw hh 3 "RAM    " rfl rfl (by decide) rfl hs.ram ht.ram
  · exact hlike.size_eq hw hh 4 "ROM    " rfl rfl (by decide) rfl hs.rom ht.rom

end LooksLike

/-- Statuses that differ only in what is not shown are drawn alike. -/
theorem drawings_congr (hprogram : s.program = t.program) (hpc : s.pc = t.pc)
    (hacc : s.acc = t.acc) (hhalted : s.halted = t.halted) (hram : s.ramSize = t.ramSize)
    (hrom : s.romLength = t.romLength)
    (hseconds : s.ticks / ticksPerSecond = t.ticks / ticksPerSecond) :
    s.drawings w h = t.drawings w h := by
  have huptime : s.uptime = t.uptime := by rw [uptime, uptime, hseconds]
  have hlines : s.panelLines = t.panelLines := by
    rw [panelLines, panelLines, hprogram, hpc, hacc, hhalted, hram, hrom]
  rw [drawings, drawings, titleBar, titleBar, panel, panel, uptimeLeft, uptimeLeft, huptime,
    hlines]

end Status

namespace Surface

variable {screen other : Surface} {s t : Status}

/-- Sizes below `2 ^ 31` are what they are as signed 32-bit numbers. -/
theorem drawStatus_eq (hwidth : screen.width < 0x80000000) (hheight : screen.height < 0x80000000)
    (s : Status) :
    screen.drawStatus s = screen.drawAll (s.drawings screen.width screen.height) := by
  have hbmod {n : Nat} (hn : n < 0x80000000) : Int.bmod n 0x100000000 = n := by
    rw [Int.bmod_def]
    omega
  rw [drawStatus, hbmod hwidth, hbmod hheight]

/-- Of what surfaces showed before they were cleared nothing is left. -/
theorem drawAll_clear_congr (hwidth : other.width = screen.width)
    (hheight : other.height = screen.height) (colour : UInt8) (ds : List Drawing) :
    screen.drawAll (.clear colour :: ds) = other.drawAll (.clear colour :: ds) := by
  have hclear : screen.draw (.clear colour) = other.draw (.clear colour) := by
    refine ext_pixel? hwidth.symm hheight.symm fun x y hx hy => ?_
    have hcovers : (Drawing.clear colour).Covers x y := trivial
    rw [pixel?_draw_of_lt screen _ hx hy, if_pos hcovers,
      pixel?_draw_of_lt other _ (hwidth.symm ▸ hx) (hheight.symm ▸ hy), if_pos hcovers]
  exact congrArg (fun surface : Surface => surface.drawAll ds) hclear

/-- Surfaces of one size whose pixels are the same after drawing were painted the same colour
everywhere. -/
theorem exists_paint_eq {ds es : List Drawing} (hwidth : other.width = screen.width)
    (hheight : other.height = screen.height)
    (hpixels : (screen.drawAll ds).pixels = (other.drawAll es).pixels) {x y : Nat}
    (hx : x < screen.width) (hy : y < screen.height) :
    ∃ before before' : UInt8, Drawing.paint ds x y before = Drawing.paint es x y before' := by
  obtain ⟨before, hbefore⟩ := exists_pixel? hx hy
  obtain ⟨before', hbefore'⟩ := exists_pixel? (s := other) (hwidth.symm ▸ hx) (hheight.symm ▸ hy)
  have hpixel : (screen.drawAll ds).pixel? x y = (other.drawAll es).pixel? x y := by
    rw [pixel?_of_lt (by rwa [width_drawAll]) (by rwa [height_drawAll]),
      pixel?_of_lt (by rwa [width_drawAll, hwidth]) (by rwa [height_drawAll, hheight]), hpixels,
      width_drawAll, width_drawAll, hwidth]
  rw [pixel?_drawAll, pixel?_drawAll, hbefore, hbefore'] at hpixel
  exact ⟨before, before', Option.some.inj hpixel⟩

/-- **The status screen shows the state of the machine faithfully.**  On surfaces of one size,
at least 256 pixels wide and 128 high, and whatever these showed before, two statuses with
programs of one name give the same pixels exactly if they agree in registers, state and sizes
and in whole seconds of uptime. -/
theorem drawStatus_eq_iff (screen other : Surface) (s t : Status)
    (hwidth : other.width = screen.width) (hheight : other.height = screen.height)
    (hw : 256 ≤ screen.width) (hw' : screen.width < 0x80000000)
    (hh : 128 ≤ screen.height) (hh' : screen.height < 0x80000000)
    (hs : s.Fits) (ht : t.Fits) (hprogram : s.program = t.program) :
    (screen.drawStatus s).pixels = (other.drawStatus t).pixels ↔
      s.pc = t.pc ∧ s.acc = t.acc ∧ s.halted = t.halted ∧ s.ramSize = t.ramSize ∧
      s.romLength = t.romLength ∧
      s.ticks / Status.ticksPerSecond = t.ticks / Status.ticksPerSecond := by
  rw [drawStatus_eq hw' hh', drawStatus_eq (hwidth ▸ hw') (hheight ▸ hh'), hwidth, hheight]
  constructor
  · intro hpixels
    have hlike : Status.LooksLike screen.width screen.height s t := by
      intro x y hx hx' hy hy'
      obtain ⟨x, rfl⟩ := Int.eq_ofNat_of_zero_le hx
      obtain ⟨y, rfl⟩ := Int.eq_ofNat_of_zero_le hy
      exact exists_paint_eq hwidth hheight hpixels (Int.ofNat_lt.1 hx') (Int.ofNat_lt.1 hy')
    exact hlike.fields_eq (by omega) (by omega) hs ht
  · rintro ⟨hpc, hacc, hhalted, hram, hrom, hseconds⟩
    rw [Status.drawings_congr hprogram hpc hacc hhalted hram hrom hseconds]
    rw [Status.drawings, drawAll_clear_congr hwidth hheight]

/-- A status a tick before the tenth second of uptime. -/
def lateTick : Status :=
  { pc := 0x1234, acc := 0xAB, halted := false, ramSize := 65536, romLength := 9,
    program := "bounce", ticks := 599 }

/-- A screen that was full of one colour before. -/
def usedScreen : Surface := (blank 256 128).draw (.clear 7)

theorem late_tick_shown :
    ((blank 256 128).drawStatus lateTick).pixels
      = (usedScreen.drawStatus { lateTick with ticks := 540 }).pixels ∧
    ((blank 256 128).drawStatus lateTick).pixels
      ≠ (usedScreen.drawStatus { lateTick with ticks := 600 }).pixels ∧
    ((blank 256 128).drawStatus lateTick).pixels
      ≠ (usedScreen.drawStatus { lateTick with romLength := 10 }).pixels := by
  have hfaithful (t : Status) (ht : t.Fits) (hprogram : lateTick.program = t.program) :=
    drawStatus_eq_iff (blank 256 128) usedScreen lateTick t rfl rfl (by decide) (by decide)
      (by decide) (by decide) ⟨by decide, by decide, by decide⟩ ht hprogram
  have hsecond := hfaithful { lateTick with ticks := 540 } ⟨by decide, by decide, by decide⟩ rfl
  have hticks := hfaithful { lateTick with ticks := 600 } ⟨by decide, by decide, by decide⟩ rfl
  have hrom := hfaithful { lateTick with romLength := 10 } ⟨by decide, by decide, by decide⟩ rfl
  rw [hsecond, ne_eq, hticks, ne_eq, hrom]
  decide

end Surface

end VirtualPC
