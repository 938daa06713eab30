/-
VirtualPC/Proofs/Machine/Viewing.lean

What a viewer gets to see of a machine that presents its surface.  A tick writes the surface
over the whole video window before the window is sampled, so whatever the guest or the host
has left there, the display takes in the surface; and between ticks nobody looks.  The viewer
therefore sees a function of the drawings alone, which can be computed without a machine
(`Surface.screen`):

    m.views ops = m.surface.screen m.display.snapshot ops

Loads, reboots, runs, presents and writes from outside are skipped by the right-hand side.

Main result: two machines of the same resolution on which the same is drawn between the same
ticks show the same, whatever else is done to them (`views_isolated`).
-/
import VirtualPC.Proofs.Machine.Invariant

namespace VirtualPC

/-- The operations a viewer is told of: what is drawn, and the ticks between. -/
def Operation.isSeen : Operation → Bool
  | .draw _ | .tick => true
  | .loadProgram _ | .loadSample _ | .reboot | .runSlice _ | .present | .render | .write _ _
  | .writeBlock _ _ => false

/-- What there is to see at a tick. -/
structure View where
  /-- Whether the tick reports that the frame has changed. -/
  changed : Bool
  /-- The frame after the tick. -/
  frame : List Rgb
  /-- The surface at the tick. -/
  pixels : List UInt8
deriving DecidableEq, Repr

/-- What a surface lets see of a history, on a screen that shows the pixels `shown` to begin
with: at each tick the surface with what has been drawn so far. -/
def Surface.screen (shown : List UInt8) (s : Surface) : List Operation → List View
  | [] => []
  | .draw d :: rest => (s.draw d).screen shown rest
  | .tick :: rest =>
    ⟨s.pixels.toList != shown, s.pixels.toList.map Palette.standard.colour, s.pixels.toList⟩
      :: s.screen s.pixels.toList rest
  | _ :: rest => s.screen shown rest

namespace Surface

variable {shown : List UInt8} {s : Surface} {ops : List Operation} {view : View}

/-- What is not seen makes no difference. -/
theorem screen_filter (shown : List UInt8) (s : Surface) (ops : List Operation) :
    s.screen shown (ops.filter Operation.isSeen) = s.screen shown ops := by
  induction ops generalizing shown s with
  | nil => rfl
  | cons op rest ih =>
    cases op with
    | draw d => exact ih shown (s.draw d)
    | tick => exact congrArg (List.cons _) (ih s.pixels.toList s)
    | loadProgram | loadSample | reboot | runSlice | present | render | write | writeBlock =>
      exact ih shown s

/-- Each tick is seen once. -/
theorem length_screen (shown : List UInt8) (s : Surface) (ops : List Operation) :
    (s.screen shown ops).length = ops.count .tick := by
  induction ops generalizing shown s with
  | nil => rfl
  | cons op rest ih =>
    rw [List.count_cons]
    cases op with
    | draw d => exact ih shown (s.draw d)
    | tick => exact congrArg (· + 1) (ih s.pixels.toList s)
    | loadProgram | loadSample | reboot | runSlice | present | render | write | writeBlock =>
      exact ih shown s

/-- What is seen is the surface in colour. -/
theorem frame_of_mem_screen (h : view ∈ s.screen shown ops) :
    view.frame = view.pixels.map Palette.standard.colour := by
  induction ops generalizing shown s with
  | nil => cases h
  | cons op rest ih =>
    cases op with
    | draw d => exact ih h
    | tick =>
      obtain _ | ⟨_, hrest⟩ := h
      · rfl
      · exact ih hrest
    | loadProgram | loadSample | reboot | runSlice | present | render | write | writeBlock =>
      exact ih h

/-- A change is reported exactly if the surface differs from what was shown before. -/
theorem changed_screen_iff {k : Nat} (h : (s.screen shown ops)[k]? = some view) :
    view.changed = true ↔
      (shown :: (s.screen shown ops).map (·.pixels))[k]? ≠ some view.pixels := by
  induction ops generalizing shown s k with
  | nil => cases h
  | cons op rest ih =>
    cases op with
    | draw d => exact ih h
    | tick =>
      cases k with
      | zero =>
        cases h
        rw [bne_iff_ne, ne_comm]
        simp
      -- at the next tick, what was shown before is the surface of this one
      | succ k => exact ih h
    | loadProgram | loadSample | reboot | runSlice | present | render | write | writeBlock =>
      exact ih h

end Surface

namespace Machine

variable {c : Config} {m after : Machine} {op : Operation}

/-- What there is to see of an operation: nothing, unless it is a tick that succeeds. -/
def view? (m : Machine) (op : Operation) : Option View :=
  match m.apply op with
  | (.ticked report, after) =>
    some ⟨report.frameChanged, after.display.frame, m.surface.pixels.toList⟩
  | _ => none

/-- What there is to see of a history, tick by tick. -/
def views (m : Machine) : List Operation → List View
  | [] => []
  | op :: rest => (m.view? op).toList ++ (m.apply op).2.views rest

/-! ### What operations leave alone -/

/-- Only drawing changes the surface. -/
theorem surface_apply (h : ∀ d, op ≠ .draw d) : (m.apply op).2.surface = m.surface := by
  have ht := transition_apply m op
  generalize m.apply op = result at ht ⊢
  obtain ⟨answer, after⟩ := result
  cases ht with
  | ran budget => rw [runSlice_eq]
  | ticked hmid =>
    obtain ⟨ram, -, rfl⟩ := presented_eq_ok hmid
    rw [runSlice_eq]
    rfl
  | drew d => exact (h d rfl).elim
  | failed | refused | loaded | rebooted | stored | rendered => rfl

/-- Only ticks and samples change the display. -/
theorem display_apply (htick : op ≠ .tick) (hrender : op ≠ .render) :
    (m.apply op).2.display = m.display := by
  have ht := transition_apply m op
  generalize m.apply op = result at ht ⊢
  obtain ⟨answer, after⟩ := result
  cases ht with
  | ran budget => rw [runSlice_eq]
  | ticked hmid => exact (htick rfl).elim
  | rendered => exact (hrender rfl).elim
  | failed | refused | loaded | rebooted | stored | drew => rfl

/-- There is nothing to see but ticks. -/
theorem view?_of_ne (m : Machine) (h : op ≠ .tick) : m.view? op = none := by
  have ht := transition_apply m op
  unfold view?
  generalize m.apply op = result at ht ⊢
  obtain ⟨answer, after⟩ := result
  cases ht with
  | ticked hmid => exact (h rfl).elim
  | failed | refused | loaded | rebooted | ran | stored | rendered | drew => rfl

/-! ### A tick that presents -/

/-- The display of a machine in which a viewer sees what was sampled: the colours are those of
the standard palette. -/
structure Shows (m : Machine) : Prop where
  faithful : m.display.Faithful
  standard : m.display.palette = Palette.standard

/-- A new machine shows, and has on its surface, zeros only. -/
theorem screen_of_create (h : create c = .ok m) (ops : List Operation) :
    m.surface.screen m.display.snapshot ops = (Surface.blank c.width c.height).screen
      (List.replicate (c.width * c.height) 0) ops := by
  obtain ⟨-, ram, -, rfl⟩ := create_eq_ok_iff.1 h
  rw [Display.snapshot, Display.blank, List.map_replicate]

namespace Shows

theorem of_create (h : create c = .ok m) : Shows m := by
  obtain ⟨-, ram, -, rfl⟩ := create_eq_ok_iff.1 h
  exact ⟨Display.faithful_blank _ _ _ _, rfl⟩

/-- A tick takes the surface in, whatever was in the window before, and reports a change
exactly if the surface differs from what was shown. -/
theorem tick (hshows : Shows m) (h : Invariant c m) (hvideo : c.video = .surface) :
    ∃ report after, m.tick = .ok (report, after) ∧ Shows after ∧ after.surface = m.surface ∧
      after.display.snapshot = m.surface.pixels.toList ∧
      after.display.frame = m.surface.pixels.toList.map Palette.standard.colour ∧
      report.frameChanged = (m.surface.pixels.toList != m.display.snapshot) := by
  have hran := h.runSlice m.config.cyclesPerTick
  obtain ⟨mid, hmid⟩ := hran.exists_presented
  have htick := tick_eq_ok_iff.2 ⟨mid, hmid, rfl, rfl⟩
  -- the slice has changed neither surface nor display, so `mid` is `m` with the surface in RAM
  rw [presented, hran.config_eq, hvideo] at hmid
  obtain ⟨ram, hram, rfl⟩ := present_eq_ok_iff.1 hmid
  rw [runSlice_eq] at hram htick
  have hwindow : ram.readBlock m.display.windowStart m.display.cells.length
      = .ok m.surface.pixels.toList := by
    have hread := Ram.readBlock_writeBlock hram
    rwa [Array.length_toList, h.size_pixels, ← h.display_length, h.config_eq,
      ← h.display_start] at hread
  have hfaithful := hshows.faithful.sample ram
  have hpalette : (m.display.sample ram).2.palette = Palette.standard :=
    (Display.palette_sample m.display ram).trans hshows.standard
  have hsnapshot := Display.snapshot_sample hwindow
  refine ⟨_, _, htick, ⟨hfaithful, hpalette⟩, rfl, hsnapshot, ?_, ?_⟩
  · have hframe := Display.frame_eq hfaithful
    rwa [hsnapshot, hpalette] at hframe
  · have hchanged := Display.sample_changed_iff hwindow
    rw [ne_comm] at hchanged
    exact Bool.eq_iff_iff.2 (hchanged.trans bne_iff_ne.symm)

/-- **What there is to see** of a machine that presents its surface is what the surface lets
see, whatever else is done to the machine. -/
theorem views_eq_screen (hshows : Shows m) (h : Invariant c m) (hvideo : c.video = .surface)
    {ops : List Operation} (hrender : .render ∉ ops) :
    m.views ops = m.surface.screen m.display.snapshot ops := by
  induction ops generalizing m with
  | nil => rfl
  | cons op rest ih =>
    have hnext : Invariant c (m.apply op).2 := h.transition (transition_apply m op)
    have hrest : Operation.render ∉ rest := fun hmem => hrender (List.mem_cons_of_mem op hmem)
    have hop : op ≠ .render := fun hop => hrender (hop ▸ List.mem_cons_self)
    by_cases htick : op = .tick
    · subst htick
      obtain ⟨report, after, htick, hshows', hsurface, hsnapshot, hframe, hchanged⟩ :=
        hshows.tick h hvideo
      have happly : m.apply .tick = (.ticked report, after) := by simp only [apply, htick]
      have hview : m.view? .tick = some ⟨m.surface.pixels.toList != m.display.snapshot,
          m.surface.pixels.toList.map Palette.standard.colour, m.surface.pixels.toList⟩ := by
        simp only [view?, happly, hchanged, hframe]
      rw [happly] at hnext
      rw [views, hview, happly, ih hshows' hnext hrest, hsurface, hsnapshot]
      rfl
    · -- neither surface nor display knows of what is not seen
      have hdisplay := display_apply (m := m) htick hop
      have hshows' : Shows (m.apply op).2 :=
        ⟨by rw [hdisplay]; exact hshows.faithful, by rw [hdisplay]; exact hshows.standard⟩
      rw [views, view?_of_ne m htick, ih hshows' hnext hrest, hdisplay]
      cases op with
      | draw d => rfl
      | tick => exact (htick rfl).elim
      | loadProgram | loadSample | reboot | runSlice | present | render | write | writeBlock =>
        rw [surface_apply (by simp)]
        rfl

end Shows

/-! ### Two machines -/

/-- **The display is isolated from the guest.**  Take two machines of one resolution that
present their surfaces, with any layouts else, and two histories in which the same is drawn
between the same ticks and the display is not sampled apart from ticks; the histories may
differ in loads, reboots, runs, presents and writes to RAM.  Then at every tick both machines
report the same and show the same frame.  Every tick shows the colours of the surface, and
reports a change exactly if the surface differs from what it was at the tick before, or from
a blank one at the first. -/
theorem views_isolated (c₁ c₂ : Config) (m₁ m₂ : Machine) (ops₁ ops₂ : List Operation)
    (hm₁ : create c₁ = .ok m₁) (hm₂ : create c₂ = .ok m₂)
    (hvideo₁ : c₁.video = .surface) (hvideo₂ : c₂.video = .surface)
    (hwidth : c₁.width = c₂.width) (hheight : c₁.height = c₂.height)
    (hlimit : c₁.width * c₁.height < sizeLimit)
    (hrender₁ : .render ∉ ops₁) (hrender₂ : .render ∉ ops₂)
    (hsame : ops₁.filter Operation.isSeen = ops₂.filter Operation.isSeen) :
    let views := m₁.views ops₁
    views = m₂.views ops₂ ∧ views.length = ops₁.count .tick ∧
    (∀ view ∈ views,
      view.frame = view.pixels.map fun index => Palette.standard.colours[index.toFin]) ∧
    ∀ (k : Nat) (view : View), views[k]? = some view →
      (view.changed = true ↔
        (List.replicate (c₁.width * c₁.height) 0 :: views.map (·.pixels))[k]?
          ≠ some view.pixels) := by
  have hlimit₂ : c₂.width * c₂.height < sizeLimit := hwidth ▸ hheight ▸ hlimit
  -- each machine shows what its surface, blank to begin with, lets see
  have hfirst : m₁.views ops₁ = (Surface.blank c₁.width c₁.height).screen
      (List.replicate (c₁.width * c₁.height) 0) ops₁ := by
    rw [(Shows.of_create hm₁).views_eq_screen (.of_create hlimit hm₁) hvideo₁ hrender₁]
    exact screen_of_create hm₁ ops₁
  have hsecond : m₂.views ops₂ = (Surface.blank c₂.width c₂.height).screen
      (List.replicate (c₂.width * c₂.height) 0) ops₂ := by
    rw [(Shows.of_create hm₂).views_eq_screen (.of_create hlimit₂ hm₂) hvideo₂ hrender₂]
    exact screen_of_create hm₂ ops₂
  intro views
  refine ⟨?_, ?_, ?_, ?_⟩
  · show m₁.views ops₁ = _
    rw [hfirst, hsecond, ← Surface.screen_filter, hsame, Surface.screen_filter, hwidth, hheight]
  · show (m₁.views ops₁).length = _
    rw [hfirst]
    exact Surface.length_screen _ _ ops₁
  · show ∀ view ∈ m₁.views ops₁, _
    rw [hfirst]
    intro view hview
    rw [Surface.frame_of_mem_screen hview]
    exact List.map_congr_left fun index _ => Palette.colour_eq _ index
  · show ∀ k view, (m₁.views ops₁)[k]? = some view → _
    intro k view hview
    show _ ↔ (_ :: (m₁.views ops₁).map (·.pixels))[k]? ≠ _
    rw [hfirst] at hview ⊢
    exact Surface.changed_screen_iff hview

/-- A layout of four pixels over so many bytes of RAM. -/
def fourPixels (ramSize : Nat) : Config where
  ramSize := ramSize
  vramStart := 8
  width := 2
  height := 2
  cyclesPerTick := 3

/-- A guest that writes to the first pixel of the window over and over. -/
def scribbler : List UInt8 := [0x04, 0x01, 0x02, 0x00, 0x08, 0x05, 0x00, 0x00]

/-- A history in which the guest scribbles in the window. -/
def scribbled : List Operation :=
  [.loadProgram scribbler, .tick, .draw (.pixel 1 0 5), .runSlice 7, .tick, .tick]

/-- The same drawing and ticks with nothing loaded, but with writes from outside. -/
def poked : List Operation :=
  [.tick, .writeBlock 8 [9, 9], .draw (.pixel 1 0 5), .present, .write 9 1, .tick, .reboot, .tick]

theorem poked_views_eq_scribbled : ∃ m₁ m₂, create (fourPixels 16) = .ok m₁ ∧
    create (fourPixels 64) = .ok m₂ ∧
    scribbled.filter Operation.isSeen = poked.filter Operation.isSeen ∧
    m₁.views scribbled = m₂.views poked ∧
    (m₁.views scribbled).map (·.pixels) = [[0, 0, 0, 0], [0, 5, 0, 0], [0, 5, 0, 0]] ∧
    (m₁.views scribbled).map (·.changed) = [false, true, false] := by
  obtain ⟨m₁, hm₁⟩ : ∃ m₁, create (fourPixels 16) = .ok m₁ := ⟨_, rfl⟩
  obtain ⟨m₂, hm₂⟩ : ∃ m₂, create (fourPixels 64) = .ok m₂ := ⟨_, rfl⟩
  have hrender : Operation.render ∉ scribbled := by decide
  have hlimit : 2 * 2 < sizeLimit := by decide
  have hsame : scribbled.filter Operation.isSeen = poked.filter Operation.isSeen := by decide
  obtain ⟨hviews, -⟩ := views_isolated (fourPixels 16) (fourPixels 64) m₁ m₂ scribbled poked
    hm₁ hm₂ rfl rfl rfl rfl hlimit hrender (by decide) hsame
  -- what is seen is computed from the surface alone
  have hscreen := (Shows.of_create hm₁).views_eq_screen (.of_create hlimit hm₁) rfl hrender
  rw [screen_of_create hm₁] at hscreen
  refine ⟨m₁, m₂, hm₁, hm₂, hsame, hviews, ?_, ?_⟩
  · rw [hscreen]
    rfl
  · rw [hscreen]
    rfl

end Machine

end VirtualPC
