/-
VirtualPC/Proofs/Machine/Loading.lean

Loading a program, loading a sample and presenting the surface are units: they happen as a
whole or not at all.  That they return no machine when they fail does not say so yet, for a
machine that is changed in place keeps what was done before the failure.  So each is spelled
out here as what it does to a machine in place, one effect after another and without a way
back (`inPlace`), down to the bytes of a block:

    check the sample;  check the range;  store the bytes;  set the image;  boot

What can fail comes before anything is changed; hence an operation carried out in place
leaves what the operation returns, and where it fails, the machine it started from
(`apply_eq_inPlace`, `inPlace_of_failed`).

A tick is no unit.  One that fails in place has run its slice, which `Machine.apply` gives up
(`apply_tick`, `tickInPlace_eq`).  But where the invariant holds the slice can be presented, so
there every operation comes to the same in place, and so does every history
(`Invariant.apply_eq_inPlace`, `Invariant.applyAll_eq_inPlaceAll`).

Main result: `failed_atomic_loaded_exact`, with the exact condition for a load to fail and
the exact footprint of one that does not.
-/
import VirtualPC.Proofs.Machine.Invariant

namespace VirtualPC

/-- The operations that happen as a whole or not at all. -/
def Operation.IsUnit : Operation → Prop
  | .loadProgram _ | .loadSample _ | .present => True
  | .reboot | .runSlice _ | .render | .tick | .write _ _ | .writeBlock _ _ | .draw _ => False

theorem Operation.IsUnit.ne_tick {op : Operation} (h : op.IsUnit) : op ≠ .tick := by
  rintro rfl
  exact h

namespace Machine

variable {c : Config} {m after : Machine} {image : List UInt8} {name : String}
  {cause : MachineError} {op : Operation}

/-! ### Operations in place -/

/-- Stores a block in RAM and goes on with `next`; if the block is refused, what has been
stored of it stays stored. -/
def storeThen (m : Machine) (start : Nat) (block : List UInt8)
    (failure : MemoryError → MachineError) (next : Machine → Answer × Machine) :
    Answer × Machine :=
  match m.core.ram.storeBlock start block with
  | (.ok (), ram) => next { m with core.ram := ram }
  | (.error cause, ram) => (.failed (failure cause), { m with core.ram := ram })

/-- The image of a sample for the layout of a machine, if the layout has room for what it
draws. -/
def sampleImage (m : Machine) (name : String) : Except MachineError (List UInt8) :=
  match Sample.find? name with
  | none => .error (.unknownProgram name)
  | some sample =>
    if m.config.vramLength < sample.vramBytes then
      .error (.sampleDoesNotFit sample m.config.vramLength)
    else if guestSpace ≤ m.config.vramStart ∨
        guestSpace < m.config.vramStart + sample.vramBytes then
      .error (.vramNotGuestAddressable m.config.vramStart)
    else
      .ok (sample.image (UInt16.ofNat m.config.loadAddress) (UInt16.ofNat m.config.vramStart))

/-- Loads a program in place: the image is copied, then remembered, then booted into. -/
def loadInPlace (m : Machine) (image : List UInt8) : Answer × Machine :=
  m.storeThen m.config.loadAddress image
    (.programTooLarge image.length m.config.loadAddress)
    fun m => (.done, { m with rom := image }.reboot)

/-- Presents the surface in place and goes on with `next`. -/
def presentThen (m : Machine) (next : Machine → Answer × Machine) : Answer × Machine :=
  m.storeThen m.config.vramStart m.surface.pixels.toList .memory next

/-- The end of a tick whose slice has come to `exit`: the display is sampled and the tick
counted. -/
def endTick (m : Machine) (exit : RunExit) : Answer × Machine :=
  (.ticked ⟨exit, m.render.1⟩, { m.render.2 with ticks := m.ticks + 1 })

/-- One tick in place; if the surface cannot be presented, the slice has been run all the
same. -/
def tickInPlace (m : Machine) : Answer × Machine :=
  let (exit, ran) := m.runSlice m.config.cyclesPerTick
  match ran.config.video with
  | .surface => ran.presentThen fun ran => ran.endTick exit
  | .guest => ran.endTick exit

/-- Carries out an operation in place. -/
def inPlace (m : Machine) : Operation → Answer × Machine
  | .loadProgram image => m.loadInPlace image
  | .loadSample name =>
    match m.sampleImage name with
    | .error cause => (.failed cause, m)
    | .ok image => m.loadInPlace image
  | .present => m.presentThen fun m => (.done, m)
  | .tick => m.tickInPlace
  | op => m.apply op

theorem storeThen_eq (m : Machine) (start : Nat) (block : List UInt8)
    (failure : MemoryError → MachineError) (next : Machine → Answer × Machine) :
    m.storeThen start block failure next = match m.core.ram.writeBlock start block with
      | .ok ram => next { m with core.ram := ram }
      | .error cause => (.failed (failure cause), m) := by
  rw [storeThen, Ram.storeBlock_eq]
  rcases m.core.ram.writeBlock start block with cause | ram
  · rfl
  · rfl

theorem loadProgram_eq_inPlace (m : Machine) (image : List UInt8) :
    m.attempt (m.loadProgram image) = m.loadInPlace image := by
  rw [loadInPlace, storeThen_eq, loadProgram]
  rcases m.core.ram.writeBlock m.config.loadAddress image with cause | ram
  · rfl
  · rfl

theorem loadSample_eq (m : Machine) (name : String) :
    m.loadSample name = match m.sampleImage name with
      | .error cause => .error cause
      | .ok image => m.loadProgram image := by
  unfold loadSample sampleImage
  rcases Sample.find? name with _ | sample
  · rfl
  · dsimp only
    split
    · rfl
    split
    · rfl
    · rfl

theorem presentThen_eq (m : Machine) (next : Machine → Answer × Machine) :
    m.presentThen next = match m.present with
      | .ok after => next after
      | .error cause => (.failed cause, m) := by
  rw [presentThen, storeThen_eq, present_eq, Surface.present]
  rcases m.core.ram.writeBlock m.config.vramStart m.surface.pixels.toList with cause | ram
  · rfl
  · rfl

/-- **An operation carried out in place** leaves what the operation leaves, a tick apart. -/
theorem apply_eq_inPlace (m : Machine) (hop : op ≠ .tick) : m.apply op = m.inPlace op := by
  cases op with
  | loadProgram image => exact loadProgram_eq_inPlace m image
  | loadSample name =>
    rw [apply, inPlace, loadSample_eq]
    rcases m.sampleImage name with cause | image
    · rfl
    · exact loadProgram_eq_inPlace m image
  | present =>
    rw [apply, inPlace, presentThen_eq]
    rcases m.present with cause | after
    · rfl
    · rfl
  | tick => exact (hop rfl).elim
  | reboot | runSlice | render | write | writeBlock | draw => rfl

/-- **What fails in place has changed nothing.** -/
theorem inPlace_of_failed (hop : op.IsUnit) (h : (m.inPlace op).1 = .failed cause) :
    (m.inPlace op).2 = m := by
  rw [← apply_eq_inPlace m hop.ne_tick] at h ⊢
  have ht := transition_apply m op
  generalize m.apply op = result at h ht ⊢
  obtain ⟨answer, after⟩ := result
  obtain rfl : answer = _ := h
  cases ht with
  | failed => rfl

/-! ### Ticks and histories in place -/

/-- Carries out operations in place, in order. -/
def inPlaceAll (m : Machine) : List Operation → List Answer × Machine
  | [] => ([], m)
  | op :: rest =>
    let (answer, m) := m.inPlace op
    let (answers, m) := m.inPlaceAll rest
    (answer :: answers, m)

/-- A tick in place has run its slice, whether what that leaves can be presented or not. -/
theorem tickInPlace_eq (m : Machine) :
    m.tickInPlace = match (m.runSlice m.config.cyclesPerTick).2.presented with
      | .ok mid => mid.endTick (m.runSlice m.config.cyclesPerTick).1
      | .error cause => (.failed cause, (m.runSlice m.config.cyclesPerTick).2) := by
  rw [tickInPlace, presented]
  dsimp only
  rcases (m.runSlice m.config.cyclesPerTick).2.config.video with _ | _
  · exact presentThen_eq _ _
  · rfl

/-- The tick of a history ends in the same way, but gives up its slice if it fails. -/
theorem apply_tick (m : Machine) :
    m.apply .tick = match (m.runSlice m.config.cyclesPerTick).2.presented with
      | .ok mid => mid.endTick (m.runSlice m.config.cyclesPerTick).1
      | .error cause => (.failed cause, m) := by
  rw [apply, tick_eq]
  rcases (m.runSlice m.config.cyclesPerTick).2.presented with cause | mid
  · rfl
  · rfl

/-- What the slice of a tick leaves can be presented, so a tick is no exception. -/
theorem Invariant.apply_eq_inPlace (h : Invariant c m) (op : Operation) :
    m.apply op = m.inPlace op := by
  by_cases hop : op = .tick
  · obtain ⟨mid, hmid⟩ := (h.runSlice m.config.cyclesPerTick).exists_presented
    rw [hop, apply_tick, inPlace, tickInPlace_eq, hmid]
  · exact m.apply_eq_inPlace hop

/-- **A history carried out in place** has the same answers and leaves the same machine, if the
sizes are those of the layout to begin with. -/
theorem Invariant.applyAll_eq_inPlaceAll (h : Invariant c m) (ops : List Operation) :
    m.applyAll ops = m.inPlaceAll ops := by
  induction ops generalizing m with
  | nil => rfl
  | cons op rest ih =>
    have hrest := ih (h.transition (transition_apply m op))
    rw [Machine.applyAll, inPlaceAll, ← h.apply_eq_inPlace op]
    dsimp only
    rw [hrest]

/-! ### Loads -/

/-- A load fails exactly if the image reaches past the end of RAM. -/
theorem loadProgram_eq_error_iff :
    m.loadProgram image = .error cause ↔
      m.core.ram.size < m.config.loadAddress + image.length ∧
      cause = .programTooLarge image.length m.config.loadAddress
        (.blockOverflow m.config.loadAddress image.length m.core.ram.size) := by
  by_cases hfits : m.config.loadAddress + image.length ≤ m.core.ram.size
  · obtain ⟨ram, hram⟩ := Ram.exists_writeBlock hfits
    simp only [loadProgram, hram, reduceCtorEq, false_iff, not_and]
    omega
  · simp only [loadProgram, Ram.writeBlock_of_not_fits hfits, Except.error.injEq]
    constructor
    · intro h
      exact ⟨by omega, h.symm⟩
    · rintro ⟨-, h⟩
      exact h.symm

/-- `after` is `before` with the image loaded: RAM holds it from the load address on, the
processor is about to start there, and nothing else has changed. -/
structure Loaded (before : Machine) (image : List UInt8) (after : Machine) : Prop where
  size : after.core.ram.size = before.core.ram.size
  cells : ∀ k, after.core.ram.cells[k]?
    = if before.config.loadAddress ≤ k ∧ k < before.config.loadAddress + image.length
      then image[k - before.config.loadAddress]? else before.core.ram.cells[k]?
  pc : after.core.cpu.pc.toNat = before.config.loadAddress
  acc : after.core.cpu.acc = 0
  halted : after.core.cpu.halted = false
  rom : after.rom = image
  lastFault : after.lastFault = none
  ticks : after.ticks = before.ticks
  surface : after.surface = before.surface
  display : after.display = before.display
  config : after.config = before.config

theorem loaded_of_loadProgram (hreach : m.config.loadAddress < guestSpace)
    (h : m.loadProgram image = .ok after) : Loaded m image after := by
  obtain ⟨ram, hram, rfl⟩ := loadProgram_eq_ok_iff.1 h
  exact {
    size := Ram.size_writeBlock hram
    cells := Ram.getElem?_writeBlock hram
    pc := UInt16.toNat_ofNat_of_lt hreach
    acc := rfl
    halted := rfl
    rom := rfl
    lastFault := rfl
    ticks := rfl
    surface := rfl
    display := rfl
    config := rfl }

/-! ### Histories -/

/-- No operation changes the size of RAM. -/
theorem size_applyAll (m : Machine) (ops : List Operation) :
    (m.applyAll ops).2.core.ram.size = m.core.ram.size := by
  refine applyAll_induction (P := fun last => last.core.ram.size = m.core.ram.size) ?_ rfl ops
  intro mid op answer after hmid ht
  cases ht with
  | loaded hop hram => exact (Ram.size_writeBlock hram).trans hmid
  | ran budget =>
    rw [runSlice_eq]
    exact (Execution.size_slice mid.execution budget).trans hmid
  | stored hop hsize => exact hsize.trans hmid
  | ticked hpresented =>
    obtain ⟨ram, hsize, rfl⟩ := presented_eq_ok hpresented
    rw [runSlice_eq] at hsize
    exact (hsize.trans (Execution.size_slice mid.execution _)).trans hmid
  | failed | refused | rebooted | rendered | drew => exact hmid

/-- The layout of a machine with any history, and the size of its RAM. -/
theorem layout_of_create {c : Config} (hm : create c = .ok m) (ops : List Operation) :
    (m.applyAll ops).2.config = c ∧ (m.applyAll ops).2.core.ram.size = c.ramSize ∧
      c.loadAddress < guestSpace := by
  obtain ⟨hvalid, ram, hram, rfl⟩ := create_eq_ok_iff.1 hm
  obtain ⟨-, -, -, -, hreach, -⟩ := Config.validate_eq_ok_iff.1 hvalid
  exact ⟨config_applyAll _ ops, (size_applyAll _ ops).trans (Ram.size_zeroed hram), hreach⟩

/-- **Failed operations are atomic, and loads have an exact footprint.**  Carried out in place
on a machine with any history, a load or a present comes to what the operation says, and one
that fails leaves every part of the machine as it was.  A load fails exactly if the image
reaches past the end of RAM, and always for that reason; one that succeeds has replaced the
bytes it covers and started the processor over, and changed nothing else.  A sample that is
loaded is loaded as its image. -/
theorem failed_atomic_loaded_exact (c : Config) (m : Machine) (hm : create c = .ok m)
    (ops : List Operation) :
    let last := (m.applyAll ops).2
    (∀ op, op.IsUnit → last.apply op = last.inPlace op ∧
      ∀ cause, (last.inPlace op).1 = .failed cause → (last.inPlace op).2 = last) ∧
    (∀ image, (∃ cause, last.loadProgram image = .error cause) ↔
      c.ramSize < c.loadAddress + image.length) ∧
    (∀ image cause, last.loadProgram image = .error cause →
      cause = .programTooLarge image.length c.loadAddress
        (.blockOverflow c.loadAddress image.length c.ramSize)) ∧
    (∀ image after, last.loadProgram image = .ok after → Loaded last image after) ∧
    (∀ name after, last.loadSample name = .ok after →
      ∃ image, last.sampleImage name = .ok image ∧ Loaded last image after) := by
  intro last
  obtain ⟨hconfig, hsize, hreach⟩ : last.config = c ∧ last.core.ram.size = c.ramSize ∧
      c.loadAddress < guestSpace := layout_of_create hm ops
  have hreach : last.config.loadAddress < guestSpace := hconfig ▸ hreach
  refine ⟨?_, ?_, ?_, ?_, ?_⟩
  · intro op hop
    exact ⟨apply_eq_inPlace last hop.ne_tick, fun cause h => inPlace_of_failed hop h⟩
  · intro image
    simp only [loadProgram_eq_error_iff, hconfig, hsize]
    simp
  · intro image cause h
    rw [(loadProgram_eq_error_iff.1 h).2, hconfig, hsize]
  · intro image after h
    exact loaded_of_loadProgram hreach h
  · intro name after h
    rw [loadSample_eq] at h
    rcases himage : last.sampleImage name with cause | image
    · rw [himage] at h
      cases h
    · rw [himage] at h
      exact ⟨image, rfl, loaded_of_loadProgram hreach h⟩

/-- A fault, and then something drawn. -/
def faulted : List Operation := [.loadProgram [0xEE], .tick, .draw (.clear 7)]

theorem faulted_reloads : ∃ m, create {} = .ok m ∧
    (∃ cause, (m.applyAll faulted).2.loadProgram (List.replicate 0x10001 0) = .error cause) ∧
    ∃ after, (m.applyAll faulted).2.loadProgram [1, 2, 3] = .ok after ∧
      after.core.ram.cells[1]? = some 2 ∧ after.core.cpu.halted = false ∧
      after.lastFault = none ∧ after.surface = (m.applyAll faulted).2.surface := by
  obtain ⟨m, hm⟩ : ∃ m, create {} = .ok m := ⟨_, rfl⟩
  obtain ⟨-, hfails, -, hloads, -⟩ := failed_atomic_loaded_exact {} m hm faulted
  refine ⟨m, hm, (hfails _).2 ?_, ?_⟩
  · rw [List.length_replicate]
    decide
  · rcases hload : (m.applyAll faulted).2.loadProgram [1, 2, 3] with cause | after
    · exact absurd ((hfails _).1 ⟨cause, hload⟩) (by decide)
    · have hloaded := hloads _ _ hload
      have hload0 : (m.applyAll faulted).2.config.loadAddress = 0 := by
        rw [(layout_of_create hm faulted).1]
      have hcell := hloaded.cells 1
      rw [hload0] at hcell
      exact ⟨after, rfl, hcell, hloaded.halted, hloaded.lastFault, hloaded.surface⟩

end Machine

end VirtualPC
