/-
VirtualPC/Proofs/Video/Sampling.lean

What a sample does to a display.  Its cells stay as many as they were, and where the window
fits in RAM the bytes last sampled are, cell for cell, those of the window: a cell whose byte
has not changed is left alone, but left alone it already holds that byte.

A cell that is left alone keeps its colour too.  So a display that shows the colours of the
bytes it holds (`Display.Faithful`), as a blank one does, goes on doing so, and what it shows
is told by its snapshot (`Display.frame_eq`).
-/
import VirtualPC.Proofs.Memory.Cells
import VirtualPC.Video.Display

namespace VirtualPC

@[simp] theorem DisplayCell.index_refresh (palette : Palette) (cell : DisplayCell)
    (byte : UInt8) : (cell.refresh palette byte).index = byte := by
  unfold refresh
  split
  · assumption
  · rfl

namespace Display

variable {d : Display} {ram : Ram} {window : List UInt8}

/-! ### Sizes -/

@[simp] theorem length_snapshot (d : Display) : d.snapshot.length = d.cells.length :=
  List.length_map _

@[simp] theorem length_frame (d : Display) : d.frame.length = d.cells.length :=
  List.length_map _

/-! ### Samples -/

/-- A sample of a window that fits refreshes every cell. -/
theorem sample_of_readBlock (h : ram.readBlock d.windowStart d.cells.length = .ok window) :
    d.sample ram = ((d.cells.zip window).any fun (cell, byte) => cell.index != byte,
      { d with cells := d.cells.zipWith (DisplayCell.refresh d.palette) window }) := by
  rw [sample, h]

/-- A window that does not fit changes nothing. -/
theorem sample_of_error {cause : MemoryError}
    (h : ram.readBlock d.windowStart d.cells.length = .error cause) :
    d.sample ram = (false, d) := by
  rw [sample, h]

/-- A sample changes neither the number of the cells nor the window. -/
theorem sample_frame (d : Display) (ram : Ram) :
    (d.sample ram).2.cells.length = d.cells.length ∧
    (d.sample ram).2.windowStart = d.windowStart := by
  rcases h : ram.readBlock d.windowStart d.cells.length with cause | window
  · rw [sample_of_error h]
    exact ⟨rfl, rfl⟩
  · rw [sample_of_readBlock h]
    refine ⟨?_, rfl⟩
    rw [List.length_zipWith, Ram.length_of_readBlock h, Nat.min_self]

/-- **A sample of a window that fits takes in the whole of it.** -/
theorem snapshot_sample (h : ram.readBlock d.windowStart d.cells.length = .ok window) :
    (d.sample ram).2.snapshot = window := by
  have hlength := Ram.length_of_readBlock h
  rw [sample_of_readBlock h]
  -- cell by cell: a refreshed cell holds the byte it was refreshed with
  refine List.ext_getElem ?_ ?_
  · rw [length_snapshot, List.length_zipWith, hlength, Nat.min_self]
  · intro k hk hwindow
    simp [snapshot]

/-- Some cell holds another byte than the one beside it exactly if the bytes differ as a
whole. -/
theorem any_index_bne_iff {cells : List DisplayCell} (hlength : window.length = cells.length) :
    ((cells.zip window).any fun (cell, byte) => cell.index != byte) = true ↔
      cells.map (·.index) ≠ window := by
  induction cells generalizing window with
  | nil =>
    rw [List.eq_nil_of_length_eq_zero hlength]
    simp
  | cons cell cells ih =>
    cases window with
    | nil => cases hlength
    | cons byte window =>
      have hrest := @ih window (by simpa using hlength)
      by_cases hbyte : cell.index = byte
      · simpa [hbyte] using hrest
      · simp [hbyte]

/-- A sample reports a change exactly if the window holds other bytes than those last
sampled. -/
theorem sample_changed_iff (h : ram.readBlock d.windowStart d.cells.length = .ok window) :
    (d.sample ram).1 = true ↔ d.snapshot ≠ window := by
  rw [sample_of_readBlock h]
  exact any_index_bne_iff (Ram.length_of_readBlock h)

@[simp] theorem palette_sample (d : Display) (ram : Ram) :
    (d.sample ram).2.palette = d.palette := by
  rcases h : ram.readBlock d.windowStart d.cells.length with cause | window
  · rw [sample_of_error h]
  · rw [sample_of_readBlock h]

/-! ### Colours -/

/-- Every cell shows the colour of the byte it holds. -/
def Faithful (d : Display) : Prop := ∀ cell ∈ d.cells, cell.colour = d.palette.colour cell.index

theorem faithful_blank (width height windowStart : Nat) (palette : Palette) :
    (blank width height windowStart palette).Faithful := by
  intro cell hcell
  rw [List.eq_of_mem_replicate hcell]
  rfl

/-- A cell that is recoloured gets the colour of its byte, and the others have theirs. -/
theorem Faithful.sample (h : d.Faithful) (ram : Ram) : (d.sample ram).2.Faithful := by
  rcases hread : ram.readBlock d.windowStart d.cells.length with cause | window
  · rw [sample_of_error hread]
    exact h
  · rw [sample_of_readBlock hread]
    intro cell hcell
    obtain ⟨k, hk, rfl⟩ := List.getElem_of_mem hcell
    have hold := h _ (List.getElem_mem (show k < d.cells.length by simp at hk; omega))
    rw [List.getElem_zipWith]
    unfold DisplayCell.refresh
    split
    · exact hold
    · rfl

/-- A faithful display shows the colours of its snapshot. -/
theorem frame_eq (h : d.Faithful) : d.frame = d.snapshot.map d.palette.colour := by
  rw [frame, snapshot, List.map_map]
  exact List.map_congr_left h

end Display

end VirtualPC
