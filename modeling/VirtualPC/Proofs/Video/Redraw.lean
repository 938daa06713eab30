/-
VirtualPC/Proofs/Video/Redraw.lean

Sampling again and again.  A display recolours only the cells whose byte has changed and keeps
the colours of the others, so what it shows has come about over many samples, some of them of
RAM that the window does not fit in.  Beside it stands a display without any memory of colours,
which draws every cell anew at every sample (`redraws`): it keeps nothing but the bytes last
taken in,

    held                        the bytes taken in before, zeros to begin with
    takeIn start held ram       those of the window of RAM, if it fits, else the same as before

Main result: the two give out the same at every sample of every sequence (`shots_eq_redraws`).
-/
import VirtualPC.Proofs.Video.Sampling

namespace VirtualPC

/-- What a display gives out at a sample. -/
structure Shot where
  /-- Whether the sample tells of a change. -/
  changed : Bool
  /-- The colours shown, packed. -/
  pixels : List UInt32
  /-- The colours shown as bytes, four to a cell. -/
  rgba : List UInt8
deriving DecidableEq, Repr

/-- The bytes of a colour: red, green, blue and full opacity. -/
def Rgb.opaqueBytes (c : Rgb) : List UInt8 := [c.red, c.green, c.blue, 0xFF]

namespace Display

variable {d : Display} {palette : Palette} {start : Nat} {held : List UInt8}

/-- Samples RAMs one after another: what the display gives out at each. -/
def shots (d : Display) : List Ram → List Shot
  | [] => []
  | ram :: rest =>
    let (changed, after) := d.sample ram
    ⟨changed, after.frame.map Rgb.packed, after.rgbaBytes⟩ :: after.shots rest

theorem shots_cons (d : Display) (ram : Ram) (rest : List Ram) :
    d.shots (ram :: rest) = ⟨(d.sample ram).1, (d.sample ram).2.frame.map Rgb.packed,
      (d.sample ram).2.rgbaBytes⟩ :: (d.sample ram).2.shots rest := rfl

/-! ### Drawing everything anew -/

/-- The bytes taken in from a window of as many bytes as are held; a window that does not fit
in RAM leaves them. -/
def takeIn (start : Nat) (held : List UInt8) (ram : Ram) : List UInt8 :=
  if start + held.length ≤ ram.size then
    (ram.cells.extract start (start + held.length)).toList
  else held

/-- What a display gives out that draws all bytes at every sample. -/
def redraws (palette : Palette) (start : Nat) (held : List UInt8) : List Ram → List Shot
  | [] => []
  | ram :: rest =>
    let taken := takeIn start held ram
    ⟨decide (taken ≠ held), taken.map fun byte => palette.colours[byte.toFin].packed,
      taken.flatMap fun byte => palette.colours[byte.toFin].opaqueBytes⟩
      :: redraws palette start taken rest

theorem length_takeIn (start : Nat) (held : List UInt8) (ram : Ram) :
    (takeIn start held ram).length = held.length := by
  rw [takeIn]
  by_cases h : start + held.length ≤ ram.size
  · have hfits : start + held.length ≤ ram.cells.size := h
    rw [if_pos h, Array.length_toList, Array.size_extract]
    omega
  · rw [if_neg h]

/-! ### Nothing is left behind -/

/-- A display of the given palette and window that holds the given bytes, and shows them. -/
structure ShowsHeld (d : Display) (palette : Palette) (start : Nat) (held : List UInt8) :
    Prop where
  faithful : d.Faithful
  palette_eq : d.palette = palette
  start_eq : d.windowStart = start
  snapshot_eq : d.snapshot = held

namespace ShowsHeld

theorem blank (width height windowStart : Nat) (palette : Palette) :
    ShowsHeld (blank width height windowStart palette) palette windowStart
      (List.replicate (width * height) 0) := by
  refine ⟨faithful_blank width height windowStart palette, rfl, rfl, ?_⟩
  rw [snapshot, Display.blank, List.map_replicate]

/-- What is shown is told by the bytes held. -/
theorem frame (h : ShowsHeld d palette start held) : d.frame = held.map palette.colour := by
  rw [frame_eq h.faithful, h.snapshot_eq, h.palette_eq]

theorem length_cells (h : ShowsHeld d palette start held) : d.cells.length = held.length := by
  rw [← h.snapshot_eq, length_snapshot]

/-- **A sample takes the window in** and tells whether that has changed anything. -/
theorem sample (h : ShowsHeld d palette start held) (ram : Ram) :
    (d.sample ram).1 = decide (takeIn start held ram ≠ held) ∧
      ShowsHeld (d.sample ram).2 palette start (takeIn start held ram) := by
  have hfaithful := h.faithful.sample ram
  have hpalette := (palette_sample d ram).trans h.palette_eq
  have hstart := (sample_frame d ram).2.trans h.start_eq
  rw [takeIn]
  by_cases hfits : start + held.length ≤ ram.size
  · have hread : ram.readBlock d.windowStart d.cells.length
        = .ok (ram.cells.extract start (start + held.length)).toList := by
      rw [h.start_eq, h.length_cells]
      exact Ram.readBlock_of_fits hfits
    have hchanged := sample_changed_iff hread
    rw [h.snapshot_eq, ne_comm] at hchanged
    rw [if_pos hfits]
    refine ⟨?_, hfaithful, hpalette, hstart, snapshot_sample hread⟩
    exact Bool.eq_iff_iff.2 (hchanged.trans decide_eq_true_iff.symm)
  -- nothing is taken in, and nothing else is different
  · have hread : ram.readBlock d.windowStart d.cells.length
        = .error (.blockOverflow start held.length ram.size) := by
      rw [h.start_eq, h.length_cells]
      exact if_neg hfits
    rw [sample_of_error hread] at hfaithful hpalette hstart ⊢
    rw [if_neg hfits]
    refine ⟨?_, hfaithful, hpalette, hstart, h.snapshot_eq⟩
    exact (decide_eq_false (not_not_intro rfl)).symm

/-- What is given out at every sample is what is drawn anew. -/
theorem shots (h : ShowsHeld d palette start held) (rams : List Ram) :
    d.shots rams = redraws palette start held rams := by
  induction rams generalizing d held with
  | nil => rfl
  | cons ram rest ih =>
    obtain ⟨hchanged, hnext⟩ := h.sample ram
    have hpixels : (d.sample ram).2.frame.map Rgb.packed
        = (takeIn start held ram).map fun byte => palette.colours[byte.toFin].packed := by
      rw [hnext.frame, List.map_map]
      simp only [Function.comp_def, Palette.colour_eq]
    have hrgba : (d.sample ram).2.rgbaBytes
        = (takeIn start held ram).flatMap fun byte =>
            palette.colours[byte.toFin].opaqueBytes := by
      rw [rgbaBytes, hnext.frame, List.flatMap_map]
      simp only [Palette.colour_eq, Rgb.opaqueBytes]
    rw [shots_cons, hchanged, hpixels, hrgba, ih hnext]
    rfl

end ShowsHeld

/-- The pixels drawn are as many as there are bytes, and their bytes are those of the pixels
unpacked. -/
theorem of_mem_redraws {rams : List Ram} {shot : Shot}
    (h : shot ∈ redraws palette start held rams) :
    shot.pixels.length = held.length ∧
      shot.rgba = shot.pixels.flatMap fun p => (Rgb.ofPacked p).opaqueBytes := by
  induction rams generalizing held with
  | nil => cases h
  | cons ram rest ih =>
    obtain _ | ⟨_, hrest⟩ := h
    · refine ⟨?_, ?_⟩
      · rw [List.length_map, length_takeIn]
      · simp [List.flatMap_map]
    · obtain ⟨hlength, hrgba⟩ := ih hrest
      exact ⟨hlength.trans (length_takeIn start held ram), hrgba⟩

theorem length_flatMap_opaqueBytes (pixels : List UInt32) :
    (pixels.flatMap fun p => (Rgb.ofPacked p).opaqueBytes).length = 4 * pixels.length := by
  induction pixels with
  | nil => rfl
  | cons p rest ih =>
    rw [List.flatMap_cons, List.length_append, ih, List.length_cons, Nat.mul_succ, Nat.add_comm]
    rfl

/-- **The incremental display equals a full redraw.**  At every sample of every sequence of
RAMs, of any sizes and contents, a new display gives out what one does that draws all cells
anew: a change exactly if the bytes taken in are others than before, and the colours of the
palette for these bytes.  There is one pixel for every cell, and there are four bytes to each
pixel, its red, green and blue and full opacity, in the same order. -/
theorem shots_eq_redraws (palette : Palette) (width height windowStart : Nat)
    (rams : List Ram) :
    let shots := (blank width height windowStart palette).shots rams
    shots = redraws palette windowStart (List.replicate (width * height) 0) rams ∧
      ∀ shot ∈ shots, shot.pixels.length = width * height ∧
        shot.rgba = (shot.pixels.flatMap fun p => (Rgb.ofPacked p).opaqueBytes) ∧
        shot.rgba.length = 4 * (width * height) := by
  intro shots
  have hshots : shots = redraws palette windowStart (List.replicate (width * height) 0) rams :=
    (ShowsHeld.blank width height windowStart palette).shots rams
  refine ⟨hshots, fun shot hshot => ?_⟩
  rw [hshots] at hshot
  obtain ⟨hlength, hrgba⟩ := of_mem_redraws hshot
  rw [List.length_replicate] at hlength
  refine ⟨hlength, hrgba, ?_⟩
  rw [hrgba, length_flatMap_opaqueBytes, hlength]

end Display

end VirtualPC
