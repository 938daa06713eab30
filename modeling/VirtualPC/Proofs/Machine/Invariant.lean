/-
VirtualPC/Proofs/Machine/Invariant.lean

What holds of a machine from its creation on, whatever is done to it.  A layout is checked
once, when a machine is created; the bounds checks made later by RAM, the surface and the
display are about the same numbers.  `Invariant c m` says that these numbers have stayed
those of the layout `c`:

    RAM                    c.ramSize cells
    surface and display    c.width * c.height cells
    window                 c.vramStart, + c.width * c.height ≤ c.ramSize
    program                c.loadAddress, + m.rom.length ≤ c.ramSize

and that a latched fault has halted the processor.  Every transition preserves it
(`Invariant.transition`), and where it holds no present, tick or sample can fail.

Main result: `reachable_consistent`, the invariant and what follows from it for every history
of every machine.
-/
import VirtualPC.Proofs.Machine.Execution
import VirtualPC.Proofs.Machine.Transition
import VirtualPC.Proofs.Video.Sampling

namespace VirtualPC

/-! ### Layouts -/

namespace Config

variable {c : Config}

/-- The layouts that are accepted. -/
theorem validate_eq_ok_iff :
    c.validate = .ok () ↔ 0 < c.ramSize ∧ 0 < c.width ∧ 0 < c.height ∧
      c.vramStart + c.vramLength ≤ c.ramSize ∧ c.loadAddress < guestSpace ∧
      c.loadAddress < c.ramSize := by
  unfold validate
  split
  · simp only [reduceCtorEq, false_iff]
    omega
  split
  · simp only [reduceCtorEq, false_iff]
    omega
  split
  · simp only [reduceCtorEq, false_iff]
    omega
  split
  · simp only [reduceCtorEq, false_iff]
    omega
  split
  · simp only [reduceCtorEq, false_iff]
    omega
  · simp only [true_iff]
    omega

/-- A window is as long as its resolution says, up to the largest size. -/
theorem vramLength_eq_min (c : Config) :
    c.vramLength = min (c.width * c.height) (sizeLimit - 1) := by
  unfold vramLength vramLength?
  split
  · rw [Option.getD_some]
    omega
  · rw [Option.getD_none]
    omega

end Config

namespace Machine

variable {c : Config} {m after : Machine} {op : Operation} {answer : Answer}

/-- The machine that a valid layout creates. -/
theorem create_eq_ok_iff :
    create c = .ok m ↔ c.validate = .ok () ∧ ∃ ram, Ram.zeroed c.ramSize = .ok ram ∧
      m = {
        config := c
        core := ⟨Cpu.boot c.loadAddress, ram⟩
        surface := Surface.blank c.width c.height
        display := Display.blank c.width c.height c.vramStart Palette.standard
        rom := []
        ticks := 0
        lastFault := none } := by
  unfold create
  rcases hvalid : c.validate with cause | ⟨⟩
  · simp
  · rcases hzero : Ram.zeroed c.ramSize with cause | ram
    · simp
    · simp [eq_comm]

/-! ### The invariant -/

/-- The sizes and addresses of a machine are those of the layout, and a latched fault has
halted its processor. -/
structure Invariant (c : Config) (m : Machine) : Prop where
  config_eq : m.config = c
  ram_size : m.core.ram.size = c.ramSize
  surface_width : m.surface.width = c.width
  surface_height : m.surface.height = c.height
  display_length : m.display.cells.length = c.width * c.height
  display_start : m.display.windowStart = c.vramStart
  window_fits : c.vramStart + c.width * c.height ≤ c.ramSize
  rom_fits : c.loadAddress + m.rom.length ≤ c.ramSize
  latched : m.execution.Latched

namespace Invariant

theorem of_create (hlimit : c.width * c.height < sizeLimit) (h : create c = .ok m) :
    Invariant c m := by
  obtain ⟨hvalid, ram, hram, rfl⟩ := create_eq_ok_iff.1 h
  obtain ⟨-, -, -, hwindow, -, hload⟩ := Config.validate_eq_ok_iff.1 hvalid
  rw [Config.vramLength_eq_min, Nat.min_eq_left (Nat.le_sub_one_of_lt hlimit)] at hwindow
  exact {
    config_eq := rfl
    ram_size := Ram.size_zeroed hram
    surface_width := rfl
    surface_height := rfl
    display_length := List.length_replicate
    display_start := rfl
    window_fits := hwindow
    rom_fits := Nat.le_of_lt hload
    latched := fun hfault => nomatch hfault }

/-! ### What is preserved -/

/-- RAM may be written in any way that keeps its size. -/
theorem store (h : Invariant c m) {ram : Ram} (hsize : ram.size = m.core.ram.size) :
    Invariant c { m with core.ram := ram } :=
  { h with ram_size := hsize.trans h.ram_size }

theorem runSlice (h : Invariant c m) (budget : Nat) : Invariant c (m.runSlice budget).2 := by
  rw [runSlice_eq]
  exact { h with
    ram_size := (Execution.size_slice m.execution budget).trans h.ram_size
    latched := h.latched.slice budget }

theorem render (h : Invariant c m) : Invariant c m.render.2 := by
  obtain ⟨hlength, hstart⟩ := Display.sample_frame m.display m.core.ram
  exact { h with
    display_length := hlength.trans h.display_length
    display_start := hstart.trans h.display_start }

/-- Loading leaves a program that fits in RAM, and a running processor. -/
theorem load (h : Invariant c m) {image : List UInt8} {ram : Ram}
    (hram : m.core.ram.writeBlock m.config.loadAddress image = .ok ram) :
    Invariant c { m with
      core := ⟨Cpu.boot m.config.loadAddress, ram⟩, rom := image, lastFault := none } := by
  have hfits := Ram.fits_of_writeBlock hram
  rw [h.config_eq, h.ram_size] at hfits
  exact { h with
    ram_size := (Ram.size_writeBlock hram).trans h.ram_size
    rom_fits := hfits
    latched := fun hfault => nomatch hfault }

/-- **Every transition preserves the invariant**, failed operations included. -/
theorem transition (h : Invariant c m) (ht : Transition m op answer after) :
    Invariant c after := by
  cases ht with
  | failed cause => exact h
  | refused cause => exact h
  | loaded hop hram => exact h.load hram
  | rebooted => exact { h with latched := fun hfault => nomatch hfault }
  | ran budget => exact h.runSlice budget
  | stored hop hsize => exact h.store hsize
  | rendered => exact h.render
  | ticked hmid =>
    -- a tick is made of operations that each preserve it
    obtain ⟨ram, hsize, rfl⟩ := presented_eq_ok hmid
    have hmid := ((h.runSlice m.config.cyclesPerTick).store hsize).render
    exact { hmid with }
  | drew d => exact { h with }

theorem applyAll (h : Invariant c m) (ops : List Operation) : Invariant c (m.applyAll ops).2 :=
  applyAll_induction (fun h ht => h.transition ht) h ops

/-! ### What cannot fail -/

/-- The surface has a pixel for each cell of the window. -/
theorem size_pixels (h : Invariant c m) : m.surface.pixels.size = c.width * c.height := by
  rw [m.surface.size_pixels, h.surface_width, h.surface_height]

/-- The surface fits in the window. -/
theorem exists_present (h : Invariant c m) : ∃ after, m.present = .ok after := by
  have hfits : m.config.vramStart + m.surface.pixels.toList.length ≤ m.core.ram.size := by
    rw [Array.length_toList, h.size_pixels, h.config_eq, h.ram_size]
    exact h.window_fits
  obtain ⟨ram, hram⟩ := Ram.exists_writeBlock hfits
  exact ⟨_, present_eq_ok_iff.2 ⟨ram, hram, rfl⟩⟩

theorem exists_presented (h : Invariant c m) : ∃ after, m.presented = .ok after := by
  unfold presented
  split
  · exact h.exists_present
  · exact ⟨m, rfl⟩

/-- A tick always succeeds: what its slice leaves can be presented. -/
theorem exists_tick (h : Invariant c m) : ∃ report after, m.tick = .ok (report, after) := by
  obtain ⟨mid, hmid⟩ := (h.runSlice m.config.cyclesPerTick).exists_presented
  exact ⟨_, _, tick_eq_ok_iff.2 ⟨mid, hmid, rfl, rfl⟩⟩

/-- The display always samples the whole window. -/
theorem exists_window (h : Invariant c m) :
    ∃ window, m.core.ram.readBlock c.vramStart (c.width * c.height) = .ok window ∧
      window.length = c.width * c.height ∧ m.render.2.display.snapshot = window := by
  have hfits : c.vramStart + c.width * c.height ≤ m.core.ram.size := by
    rw [h.ram_size]
    exact h.window_fits
  have hread := Ram.readBlock_of_fits hfits
  -- the display reads the window by its own start and number of cells
  refine ⟨_, hread, Ram.length_of_readBlock hread, ?_⟩
  rw [← h.display_start, ← h.display_length] at hread ⊢
  exact Display.snapshot_sample hread

end Invariant

/-! ### Histories -/

/-- No operation changes the layout. -/
theorem config_applyAll (m : Machine) (ops : List Operation) :
    (m.applyAll ops).2.config = m.config := by
  refine applyAll_induction (P := fun last => last.config = m.config) ?_ rfl ops
  intro mid op answer after hmid ht
  cases ht with
  | ran budget =>
    rw [runSlice_eq]
    exact hmid
  | ticked hpresented =>
    obtain ⟨ram, -, rfl⟩ := presented_eq_ok hpresented
    rw [runSlice_eq]
    exact hmid
  | failed | refused | loaded | rebooted | stored | rendered | drew => exact hmid

/-- Only a tick moves the tick counter. -/
theorem ticks_apply_of_ne (m : Machine) (h : op ≠ .tick) : (m.apply op).2.ticks = m.ticks := by
  have ht := transition_apply m op
  generalize m.apply op = result at ht ⊢
  obtain ⟨answer, after⟩ := result
  cases ht with
  | ran budget => rw [runSlice_eq]
  | ticked hmid => exact (h rfl).elim
  | failed | refused | loaded | rebooted | stored | rendered | drew => rfl

/-- Every tick counts, since none fails. -/
theorem Invariant.ticks_apply (h : Invariant c m) (op : Operation) :
    (m.apply op).2.ticks = m.ticks + if op = .tick then 1 else 0 := by
  by_cases hop : op = .tick
  · obtain ⟨report, after, htick⟩ := h.exists_tick
    obtain ⟨mid, hmid, -, rfl⟩ := tick_eq_ok_iff.1 htick
    obtain ⟨ram, -, rfl⟩ := presented_eq_ok hmid
    rw [if_pos hop, hop]
    simp only [apply, htick]
    show (m.runSlice m.config.cyclesPerTick).2.ticks + 1 = m.ticks + 1
    rw [runSlice_eq]
  · rw [if_neg hop, ticks_apply_of_ne m hop, Nat.add_zero]

theorem Invariant.ticks_applyAll (h : Invariant c m) (ops : List Operation) :
    (m.applyAll ops).2.ticks = m.ticks + ops.count .tick := by
  induction ops generalizing m with
  | nil => rfl
  | cons op rest ih =>
    have hrest := ih (h.transition (transition_apply m op))
    rw [List.count_cons, Nat.add_comm (rest.count .tick), ← Nat.add_assoc]
    refine hrest.trans (congrArg (· + rest.count .tick) ?_)
    simpa using h.ticks_apply op

/-- **Every reachable machine is consistent, and its driver is total.**  Whatever has been
done to a machine, failed operations included, RAM, surface, snapshot and frame have the
sizes the layout gave them, the program fits, a latched fault has halted the processor and
every tick has been counted; and presenting, ticking and sampling succeed, the sample taking
in the whole window. -/
theorem reachable_consistent (c : Config) (m : Machine)
    (hlimit : c.width * c.height < sizeLimit) (hm : create c = .ok m) (ops : List Operation) :
    let last := (m.applyAll ops).2
    last.config = c ∧ last.core.ram.size = c.ramSize ∧
    last.surface.pixels.size = c.width * c.height ∧
    last.display.snapshot.length = c.width * c.height ∧
    last.display.frame.length = c.width * c.height ∧
    last.display.windowStart = c.vramStart ∧
    c.loadAddress + last.rom.length ≤ c.ramSize ∧
    (last.lastFault.isSome = true → last.core.cpu.halted = true) ∧
    last.ticks = ops.count .tick ∧
    (∃ after, last.present = .ok after) ∧
    (∃ report after, last.tick = .ok (report, after)) ∧
    ∃ window, last.core.ram.readBlock c.vramStart (c.width * c.height) = .ok window ∧
      window.length = c.width * c.height ∧ last.render.2.display.snapshot = window := by
  intro last
  have hstart := Invariant.of_create hlimit hm
  have hlast : Invariant c last := hstart.applyAll ops
  have hticks : last.ticks = ops.count .tick := by
    obtain ⟨-, ram, -, rfl⟩ := create_eq_ok_iff.1 hm
    exact (hstart.ticks_applyAll ops).trans (Nat.zero_add _)
  refine ⟨hlast.config_eq, hlast.ram_size, hlast.size_pixels, ?_, ?_, hlast.display_start,
    hlast.rom_fits, hlast.latched, hticks, hlast.exists_present, hlast.exists_tick,
    hlast.exists_window⟩
  · rw [Display.length_snapshot, hlast.display_length]
  · rw [Display.length_frame, hlast.display_length]

/-- A history with a refused write, a failed load and a tick in it. -/
def mixedHistory : List Operation :=
  [.writeBlock 0xFFFF [1, 2], .loadSample "unknown", .loadSample "pulse", .tick, .write 0 0xAA]

theorem default_consistent : ∃ m, create {} = .ok m ∧
    256 * 128 < sizeLimit ∧
    (m.applyAll mixedHistory).2.core.ram.size = 0x10000 ∧
    (m.applyAll mixedHistory).2.display.snapshot.length = 256 * 128 ∧
    (m.applyAll mixedHistory).2.ticks = 1 ∧
    ∃ report after, (m.applyAll mixedHistory).2.tick = .ok (report, after) := by
  obtain ⟨m, hm⟩ : ∃ m, create {} = .ok m := ⟨_, rfl⟩
  have hlimit : 256 * 128 < sizeLimit := by decide
  obtain ⟨-, hram, -, hsnapshot, -, -, -, -, hticks, -, htick, -⟩ :=
    reachable_consistent {} m hlimit hm mixedHistory
  exact ⟨m, hm, hlimit, hram, hsnapshot, hticks, htick⟩

end Machine

end VirtualPC
