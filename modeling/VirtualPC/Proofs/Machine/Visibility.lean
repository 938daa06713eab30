/-
VirtualPC/Proofs/Machine/Visibility.lean

A reported change can be seen.  A sample compares bytes, and a viewer sees colours, so the two
might part ways: a change of bytes that share a colour would be reported and not be seen.  The
standard palette leaves no room for that.  Its greys are told apart by their brightness, and
none of the colours before them is a grey or stands there twice, so

    Palette.colour_standard_injective    different pixel values have different colours

and what a machine shows (`framebuffer`) tells the bytes that were sampled.  Every reachable
machine shows the colours of its snapshot (`Shows.applyAll`), whatever has been done to it.

Main result: a tick or a sample reports a change exactly if some cell of the framebuffer is
another than before, and nothing else changes the framebuffer (`changed_iff_visible`).
-/
import Mathlib.Data.List.Basic
import VirtualPC.Proofs.Machine.Viewing

namespace VirtualPC

/-! ### The standard palette -/

theorem Rgb.packed_injective : Function.Injective Rgb.packed :=
  Function.LeftInverse.injective Rgb.ofPacked_packed

namespace Palette

variable {i : UInt8}

theorem colour_standard_of_chrome (h : i.toNat < chrome.length) :
    standard.colour i = Rgb.ofPacked chrome[i.toNat] := by
  simp [colour_eq, standard, h]

theorem colour_standard_of_grey (h : chrome.length ≤ i.toNat) :
    standard.colour i = ⟨i, i, i⟩ := by
  simp [colour_eq, standard, h]

/-- No colour of the user interface stands there twice. -/
theorem chrome_injective (i j : Fin chrome.length)
    (h : Rgb.ofPacked chrome[i] = Rgb.ofPacked chrome[j]) : i = j := by
  revert i j
  decide

/-- No colour of the user interface is a grey. -/
theorem chrome_not_grey (i : Fin chrome.length) :
    (Rgb.ofPacked chrome[i]).red ≠ (Rgb.ofPacked chrome[i]).green := by
  revert i
  decide

/-- **Different pixel values have different colours.** -/
theorem colour_standard_injective : Function.Injective standard.colour := by
  intro i j h
  rcases Nat.lt_or_ge i.toNat chrome.length with hi | hi
  · rcases Nat.lt_or_ge j.toNat chrome.length with hj | hj
    · rw [colour_standard_of_chrome hi, colour_standard_of_chrome hj] at h
      exact UInt8.toNat.inj (Fin.mk.inj (chrome_injective ⟨i.toNat, hi⟩ ⟨j.toNat, hj⟩ h))
    · have hgrey := chrome_not_grey ⟨i.toNat, hi⟩
      rw [colour_standard_of_chrome hi, colour_standard_of_grey hj] at h
      exact (hgrey (by simp [h])).elim
  · rcases Nat.lt_or_ge j.toNat chrome.length with hj | hj
    · have hgrey := chrome_not_grey ⟨j.toNat, hj⟩
      rw [colour_standard_of_chrome hj, colour_standard_of_grey hi] at h
      exact (hgrey (by simp [← h])).elim
    · rw [colour_standard_of_grey hi, colour_standard_of_grey hj] at h
      exact (Rgb.mk.inj h).1

end Palette

namespace Display

/-- A sample reports a change exactly if it leaves other bytes than it found; one of a window
that does not fit leaves what it found and reports none. -/
theorem sample_changed_iff_snapshot (d : Display) (ram : Ram) :
    (d.sample ram).1 = true ↔ (d.sample ram).2.snapshot ≠ d.snapshot := by
  rcases h : ram.readBlock d.windowStart d.cells.length with cause | window
  · rw [sample_of_error h]
    simp
  · rw [snapshot_sample h, sample_changed_iff h, ne_comm]

end Display

namespace Machine

variable {c : Config} {m after : Machine} {op : Operation} {answer : Answer}
  {report : TickReport}

/-- The colours a machine shows, packed, row by row. -/
def framebuffer (m : Machine) : List UInt32 := m.display.frame.map Rgb.packed

/-! ### What operations do to the display -/

theorem display_of_presented {mid : Machine} {budget : Nat}
    (h : (m.runSlice budget).2.presented = .ok mid) : mid.display = m.display := by
  obtain ⟨ram, -, rfl⟩ := presented_eq_ok h
  rw [runSlice_eq]

/-- A tick samples the display, and reports what the sample does. -/
theorem display_of_tick (h : m.tick = .ok (report, after)) :
    ∃ ram, report.frameChanged = (m.display.sample ram).1 ∧
      after.display = (m.display.sample ram).2 := by
  obtain ⟨mid, hmid, rfl, rfl⟩ := tick_eq_ok_iff.1 h
  rw [← display_of_presented hmid]
  exact ⟨mid.core.ram, rfl, rfl⟩

/-- Whatever is done to a machine, its display is left alone or sampled. -/
theorem display_of_transition (ht : Transition m op answer after) :
    after.display = m.display ∨ ∃ ram, after.display = (m.display.sample ram).2 := by
  cases ht with
  | ran budget =>
    rw [runSlice_eq]
    exact .inl rfl
  | rendered => exact .inr ⟨m.core.ram, rfl⟩
  | ticked hmid =>
    rename_i mid
    rw [← display_of_presented hmid]
    exact .inr ⟨mid.core.ram, rfl⟩
  | failed | refused | loaded | rebooted | stored | drew => exact .inl rfl

namespace Shows

theorem sample (h : Shows m) {ram : Ram} (hdisplay : after.display = (m.display.sample ram).2) :
    Shows after := by
  refine ⟨?_, ?_⟩
  · rw [hdisplay]
    exact h.faithful.sample ram
  · rw [hdisplay, Display.palette_sample, h.standard]

/-- A machine that shows its snapshot goes on doing so. -/
theorem applyAll (h : Shows m) (ops : List Operation) : Shows (m.applyAll ops).2 := by
  refine applyAll_induction ?_ h ops
  intro m op answer after hm ht
  rcases display_of_transition ht with hsame | ⟨ram, hdisplay⟩
  · exact ⟨by rw [hsame]; exact hm.faithful, by rw [hsame]; exact hm.standard⟩
  · exact hm.sample hdisplay

/-- What is shown tells the bytes sampled, and is told by them. -/
theorem framebuffer_eq_iff (h : Shows m) (hafter : Shows after) :
    after.framebuffer = m.framebuffer ↔ after.display.snapshot = m.display.snapshot := by
  have hinjective : Function.Injective (Rgb.packed ∘ Palette.standard.colour) :=
    Rgb.packed_injective.comp Palette.colour_standard_injective
  rw [framebuffer, framebuffer, Display.frame_eq h.faithful, Display.frame_eq hafter.faithful,
    h.standard, hafter.standard, List.map_map, List.map_map,
    (List.map_injective_iff.2 hinjective).eq_iff]

end Shows

theorem length_framebuffer (m : Machine) : m.framebuffer.length = m.display.cells.length := by
  rw [framebuffer, List.length_map, Display.length_frame]

/-- No operation changes the number of the cells. -/
theorem length_framebuffer_applyAll (hm : create c = .ok m) (ops : List Operation) :
    (m.applyAll ops).2.framebuffer.length = c.width * c.height := by
  have hcells : m.display.cells.length = c.width * c.height := by
    obtain ⟨-, ram, -, rfl⟩ := create_eq_ok_iff.1 hm
    exact List.length_replicate
  rw [length_framebuffer]
  refine applyAll_induction (P := fun last => last.display.cells.length = c.width * c.height)
    ?_ hcells ops
  intro m op answer after hm ht
  rcases display_of_transition ht with hsame | ⟨ram, hdisplay⟩
  · rw [hsame, hm]
  · rw [hdisplay, (Display.sample_frame m.display ram).1, hm]

/-! ### Changes that can be seen -/

/-- Framebuffers of one length are different exactly if they differ in a cell. -/
theorem exists_cell_ne_iff {before shown : List UInt32} {count : Nat}
    (hbefore : before.length = count) (hshown : shown.length = count) :
    (∃ cell < count, shown[cell]? ≠ before[cell]?) ↔ shown ≠ before := by
  constructor
  · rintro ⟨cell, -, hcell⟩ rfl
    exact hcell rfl
  · intro hne
    by_contra hnone
    refine hne (List.ext_getElem? fun cell => ?_)
    rcases Nat.lt_or_ge cell count with hlt | hge
    · by_contra hcell
      exact hnone ⟨cell, hlt, hcell⟩
    · rw [List.getElem?_eq_none (hshown ▸ hge), List.getElem?_eq_none (hbefore ▸ hge)]

/-- A sample reports a change exactly if it changes the framebuffer. -/
theorem Shows.changed_iff (h : Shows m) {ram : Ram}
    (hdisplay : after.display = (m.display.sample ram).2) :
    (m.display.sample ram).1 = true ↔ after.framebuffer ≠ m.framebuffer := by
  rw [Display.sample_changed_iff_snapshot, ← hdisplay, ne_eq, ne_eq,
    h.framebuffer_eq_iff (h.sample hdisplay)]

/-- **A change is reported exactly if it can be seen.**  Take a machine of any layout after
any history.  A tick, which cannot fail in a layout whose window has a size, reports a changed
frame exactly if some cell of the framebuffer differs from what it was before the tick, and so
does a sample on its own.  No other operation changes any cell, whether it fails or not. -/
theorem changed_iff_visible (c : Config) (m : Machine) (hm : create c = .ok m)
    (ops : List Operation) :
    let last := (m.applyAll ops).2
    last.framebuffer.length = c.width * c.height ∧
    (c.width * c.height < sizeLimit → ∃ report after, last.tick = .ok (report, after)) ∧
    (∀ report after, last.tick = .ok (report, after) →
      (report.frameChanged = true ↔
        ∃ cell < c.width * c.height, after.framebuffer[cell]? ≠ last.framebuffer[cell]?)) ∧
    (last.render.1 = true ↔
      ∃ cell < c.width * c.height, last.render.2.framebuffer[cell]? ≠ last.framebuffer[cell]?) ∧
    ∀ op, op ≠ .tick → op ≠ .render → (last.apply op).2.framebuffer = last.framebuffer := by
  intro last
  have hshows : Shows last := (Shows.of_create hm).applyAll ops
  have hlast : last.framebuffer.length = c.width * c.height := length_framebuffer_applyAll hm ops
  -- what is sampled has as many cells, so a change is a change of some cell
  have hseen {after : Machine} {ram : Ram}
      (hdisplay : after.display = (last.display.sample ram).2) :
      (last.display.sample ram).1 = true ↔
        ∃ cell < c.width * c.height, after.framebuffer[cell]? ≠ last.framebuffer[cell]? := by
    have hafter : after.framebuffer.length = c.width * c.height := by
      rw [length_framebuffer, hdisplay, (Display.sample_frame last.display ram).1,
        ← length_framebuffer, hlast]
    rw [exists_cell_ne_iff hlast hafter]
    exact hshows.changed_iff hdisplay
  refine ⟨hlast, ?_, ?_, hseen rfl, ?_⟩
  · intro hlimit
    exact ((Invariant.of_create hlimit hm).applyAll ops).exists_tick
  · intro report after htick
    obtain ⟨ram, hchanged, hdisplay⟩ := display_of_tick htick
    rw [hchanged]
    exact hseen hdisplay
  · intro op htick hrender
    rw [framebuffer, display_apply htick hrender]
    rfl

/-- The layout of four pixels with the guest alone in charge of the window. -/
def guestPixels : Config := { fourPixels 16 with video := .guest }

/-- A guest about to scribble over a pixel that was written from outside and never sampled. -/
def unsampled : List Operation := [.loadProgram scribbler, .write 8 0xE0]

theorem scribbled_pixel_seen : ∃ m report after, create guestPixels = .ok m ∧
    (m.applyAll unsampled).2.tick = .ok (report, after) ∧ report.frameChanged = true ∧
    ∃ cell < 2 * 2, after.framebuffer[cell]? ≠ (m.applyAll unsampled).2.framebuffer[cell]? := by
  obtain ⟨m, hm⟩ : ∃ m, create guestPixels = .ok m := ⟨_, rfl⟩
  obtain ⟨-, htotal, hseen, -⟩ := changed_iff_visible guestPixels m hm unsampled
  obtain ⟨report, after, htick⟩ := htotal (by decide)
  have hanswer : (create guestPixels).map (fun m => ((m.applyAll unsampled).2.apply .tick).1)
      = .ok (.ticked ⟨.completed 3, true⟩) := by decide +kernel
  simp only [hm, Except.map, apply, htick, Except.ok.injEq, Answer.ticked.injEq] at hanswer
  have hchanged : report.frameChanged = true := by rw [hanswer]
  exact ⟨m, report, after, hm, htick, hchanged, (hseen report after htick).1 hchanged⟩

end Machine

end VirtualPC
