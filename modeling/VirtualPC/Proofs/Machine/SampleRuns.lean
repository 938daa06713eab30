/-
VirtualPC/Proofs/Machine/SampleRuns.lean

What comes of loading a sample and running it.  The loader checks that the window is large
enough for what a sample draws and within reach of 16-bit addresses.  It does not look at
what else lies there, so not every sample it accepts can run (`accepted_samples_fault`):

    the window over the image       a sample draws over its own code
    `counterAddress` outside RAM    `counter` stores where there is no RAM
    an image across 64 KiB          the program counter goes round before the image ends

Nothing else stands in the way.  Where the image ends inside the guest space and the cells
that the sample stores to are off the image, and inside RAM in the case of `counter`, what
has been loaded is a well-formed program (`wellFormed_of_loadSample`).  Main result: there no
run after the load ends with a fault (`runSlice_loadSample_ne_fault`).
-/
import VirtualPC.Proofs.Machine.Loading
import VirtualPC.Proofs.Program.Samples

namespace VirtualPC

/-- Every sample is found by its name. -/
theorem Sample.find?_name (s : Sample) : Sample.find? s.name = some s := by
  cases s <;> decide

namespace Machine

variable {c : Config} {m after : Machine} {name : String} {sample : Sample}

/-! ### Loaded samples -/

/-- A sample whose image fits is loaded, if the window has room for what it draws. -/
theorem exists_loadSample (hm : create c = .ok m) (ops : List Operation)
    (hfind : Sample.find? name = some sample) (hlength : sample.vramBytes ≤ c.vramLength)
    (hstart : c.vramStart < guestSpace) (hdrawn : c.vramStart + sample.vramBytes ≤ guestSpace)
    (hfits : c.loadAddress + (sample.image (UInt16.ofNat c.loadAddress)
      (UInt16.ofNat c.vramStart)).length ≤ c.ramSize) :
    ∃ after, (m.applyAll ops).2.loadSample name = .ok after := by
  obtain ⟨hconfig, hsize, -⟩ := layout_of_create hm ops
  obtain ⟨ram, hram⟩ := Ram.exists_writeBlock (hsize.symm ▸ hfits)
  refine ⟨_, loadSample_eq_ok_iff.2 ⟨sample, hfind, ?_, ?_, ?_,
    loadProgram_eq_ok_iff.2 ⟨ram, ?_, rfl⟩⟩⟩
  · rwa [hconfig]
  · rwa [hconfig]
  · rwa [hconfig]
  · rwa [hconfig]

/-- A machine that has loaded a sample holds its instructions and is about to start them, and
the window has room for what the sample draws. -/
theorem writeBlock_of_loadSample (hm : create c = .ok m) (ops : List Operation)
    (hfind : Sample.find? name = some sample)
    (hload : (m.applyAll ops).2.loadSample name = .ok after) :
    ∃ base vram : UInt16, ∃ ram,
      base.toNat = c.loadAddress ∧ vram.toNat = c.vramStart ∧
      (m.applyAll ops).2.core.ram.writeBlock base.toNat
        (Instruction.encodeAll (sample.program base vram)) = .ok ram ∧
      after.core = ⟨Cpu.boot base.toNat, ram⟩ ∧
      after.rom = Instruction.encodeAll (sample.program base vram) ∧
      c.vramStart + sample.vramBytes ≤ guestSpace ∧
      c.vramStart + sample.vramBytes ≤ c.ramSize := by
  obtain ⟨hconfig, -, hguest⟩ := layout_of_create hm ops
  obtain ⟨hvalid, -⟩ := create_eq_ok_iff.1 hm
  obtain ⟨-, -, -, hwindow, -, -⟩ := Config.validate_eq_ok_iff.1 hvalid
  obtain ⟨found, hfound, hlength, hstart, hdrawn, hload⟩ := loadSample_eq_ok_iff.1 hload
  obtain rfl : found = sample := Option.some.inj (hfound.symm.trans hfind)
  rw [Sample.image_eq_encodeAll] at hload
  obtain ⟨ram, hram, rfl⟩ := loadProgram_eq_ok_iff.1 hload
  rw [hconfig] at hram hlength hstart hdrawn
  -- neither address is changed by being taken modulo 64 KiB
  have hbase : (UInt16.ofNat c.loadAddress).toNat = c.loadAddress :=
    UInt16.toNat_ofNat_of_lt hguest
  refine ⟨UInt16.ofNat c.loadAddress, UInt16.ofNat c.vramStart, ram, hbase,
    UInt16.toNat_ofNat_of_lt hstart, ?_, ?_, ?_, hdrawn, by omega⟩
  · rw [hbase]
    exact hram
  · rw [hbase, hconfig]
  · rw [hconfig]

/-- A sample that has room is loaded as a well-formed program. -/
theorem wellFormed_of_loadSample (hm : create c = .ok m) (ops : List Operation)
    (hfind : Sample.find? name = some sample)
    (hload : (m.applyAll ops).2.loadSample name = .ok after)
    (hreach : c.loadAddress + after.rom.length ≤ guestSpace)
    (hcounter : sample = .counter → Sample.counterAddress.toNat < c.ramSize)
    (hoff : ∀ address, sample.Stores c.vramStart address →
      ¬ (c.loadAddress ≤ address ∧ address < c.loadAddress + after.rom.length)) :
    ∃ base vram : UInt16, ∃ ram,
      base.toNat = c.loadAddress ∧ vram.toNat = c.vramStart ∧
      Program.WellFormed base.toNat c.ramSize (sample.program base vram) ∧
      (m.applyAll ops).2.core.ram.writeBlock base.toNat
        (Instruction.encodeAll (sample.program base vram)) = .ok ram ∧
      after.core = ⟨Cpu.boot base.toNat, ram⟩ := by
  obtain ⟨base, vram, ram, hbase, hvram, hram, hcore, hrom, hdrawn, hwindow⟩ :=
    writeBlock_of_loadSample hm ops hfind hload
  rw [hrom, ← hbase, ← Sample.image_eq_encodeAll] at hreach hoff
  refine ⟨base, vram, ram, hbase, hvram, Sample.wellFormed hreach ?_ ?_ ?_, hram, hcore⟩
  · rw [Sample.image_eq_encodeAll, ← (layout_of_create hm ops).2.1]
    exact Ram.fits_of_writeBlock hram
  · rw [hvram]
    exact hdrawn
  · intro address hstores
    rw [hvram] at hstores
    refine ⟨?_, hoff address hstores⟩
    obtain ⟨hname, rfl⟩ | ⟨-, hlt⟩ := hstores
    · exact hcounter hname
    · omega

/-! ### Samples that run -/

/-- **A sample that has room runs without a fault.**  Take a machine with any history that has
loaded a sample.  If the image ends inside the guest space, the sample stores to no cell of
its own image, and `counter` finds its cell in RAM, then no run of any length ends with a
fault. -/
theorem runSlice_loadSample_ne_fault (c : Config) (m : Machine) (hm : create c = .ok m)
    (ops : List Operation) (name : String) (sample : Sample)
    (hfind : Sample.find? name = some sample) (after : Machine)
    (hload : (m.applyAll ops).2.loadSample name = .ok after)
    (hreach : c.loadAddress + after.rom.length ≤ guestSpace)
    (hcounter : sample = .counter → Sample.counterAddress.toNat < c.ramSize)
    (hoff : ∀ address, sample.Stores c.vramStart address →
      ¬ (c.loadAddress ≤ address ∧ address < c.loadAddress + after.rom.length))
    (budget n : Nat) (cause : Fault) : (after.runSlice budget).1 ≠ .fault n cause := by
  obtain ⟨base, vram, ram, -, -, hp, hram, hcore⟩ :=
    wellFormed_of_loadSample hm ops hfind hload hreach hcounter hoff
  rw [runSlice_eq, Execution.slice_exit]
  show (after.core.run budget).1 ≠ .fault n cause
  rw [hcore]
  exact Program.run_ne_fault hp (Sample.closed base vram sample) (layout_of_create hm ops).2.1
    hram budget n cause

/-- The default layout has room for `counter`. -/
theorem counter_never_faults : ∃ m after, create {} = .ok m ∧
    (m.applyAll [.write 0x9000 7]).2.loadSample "counter.bin" = .ok after ∧
    ∀ budget n cause, (after.runSlice budget).1 ≠ .fault n cause := by
  obtain ⟨m, hm⟩ : ∃ m, create {} = .ok m := ⟨_, rfl⟩
  have hfind : Sample.find? "counter.bin" = some .counter := by decide
  obtain ⟨after, hload⟩ := exists_loadSample hm [.write 0x9000 7] hfind
    (by decide) (by decide) (by decide) (by decide)
  have hrom : after.rom.length = 10 := by
    obtain ⟨base, vram, -, -, -, -, -, hrom, -⟩ := writeBlock_of_loadSample hm _ hfind hload
    rw [hrom]
    rfl
  refine ⟨m, after, hm, hload,
    runSlice_loadSample_ne_fault {} m hm _ _ .counter hfind after hload ?_ ?_ ?_⟩
  · rw [hrom]
    decide
  · intro _
    decide
  · rintro address (⟨-, rfl⟩ | ⟨hge, hlt⟩)
    · rw [hrom]
      decide
    · exact absurd hlt (Nat.not_lt.2 hge)

/-! ### Samples that do not -/

/-- On a new machine of the layout a sample is loaded, and a run of it faults after `n`
instructions. -/
def FaultsOn (c : Config) (sample : Sample) (n : Nat) (cause : Fault) : Prop :=
  ∃ m after budget, create c = .ok m ∧ m.loadSample sample.name = .ok after ∧
    (after.runSlice budget).1 = .fault n cause

/-- The window is over the image. -/
def overdrawn : Config where
  ramSize := 16
  vramStart := 0
  width := 1
  height := 1

/-- RAM ends before the cell of `counter`. -/
def cramped : Config where
  ramSize := 16
  vramStart := 15
  width := 1
  height := 1

/-- The image of `pulse` goes on where the guest space has ended. -/
def straddling : Config where
  ramSize := 0x10003
  loadAddress := 0xFFF8
  vramStart := 0
  width := 1
  height := 1

/-- The instructions of `pulse` in front of its jump, which fill the guest space to its end. -/
def pulseFront : List Instruction := [.load 0, .addImmediate 0x11, .store 0]

theorem wellFormed_pulseFront :
    Program.WellFormed (0xFFF8 : UInt16).toNat 0x10003 pulseFront where
  known := by simp [pulseFront]
  reachable := by decide
  fits := by decide
  jumps := by simp [pulseFront]
  loads := by simp [pulseFront]
  stores := by
    intro address h
    obtain rfl : address = 0 := by simpa [pulseFront] using h
    decide

theorem run?_pulseFront {ram last : Ram} (hcell : ram.cells[0]? = some 0)
    (hwrite : ram.write 0 0x11 = .ok last) :
    Program.run? (0xFFF8 : UInt16).toNat pulseFront 3 (Program.State.start ram)
      = some (pulseFront, ⟨3, 0x11, last, false⟩) := by
  simp [Program.run?, Program.step?, Program.carryOut?, Program.State.start,
    Program.State.next, pulseFront, hcell, hwrite]

/-- The RAM of a new machine is zero throughout. -/
theorem cells_of_create (hm : create c = .ok m) {k : Nat} (hk : k < c.ramSize) :
    m.core.ram.cells[k]? = some 0 := by
  obtain ⟨-, ram, hram, rfl⟩ := create_eq_ok_iff.1 hm
  show ram.cells[k]? = some 0
  rw [Ram.cells_zeroed hram, Array.getElem?_replicate, if_pos hk]

/-- The program counter goes round and finds what `pulse` has drawn. -/
theorem pulse_faults_straddling : FaultsOn straddling .pulse 3 (.illegalOpcode 0x11 0) := by
  obtain ⟨m, hm⟩ : ∃ m, create straddling = .ok m := ⟨_, rfl⟩
  have hfind := Sample.find?_name .pulse
  obtain ⟨after, hload⟩ : ∃ after, m.loadSample Sample.pulse.name = .ok after :=
    exists_loadSample hm [] hfind (by decide) (by decide) (by decide) (by decide)
  obtain ⟨base, vram, ram, hbase, hvram, hram, hcore, -⟩ :=
    writeBlock_of_loadSample hm [] hfind hload
  obtain rfl : base = 0xFFF8 := UInt16.toNat.inj hbase
  obtain rfl : vram = 0 := UInt16.toNat.inj hvram
  have hcell : ram.cells[0]? = some 0 := by
    rw [Ram.getElem?_writeBlock hram, if_neg (by decide)]
    exact cells_of_create hm (by decide)
  obtain ⟨drawn, hwrite⟩ := Ram.exists_write 0x11 (show 0 < ram.size from ram.size_pos)
  -- the instructions in front of the jump are a well-formed program of their own
  have hfront : Program.Matches 0xFFF8 pulseFront (Program.State.start ram)
      ⟨Cpu.boot (0xFFF8 : UInt16).toNat, ram⟩ := Program.matches_start_append hram
  obtain ⟨last, hcalls, hlast⟩ :=
    hfront.run wellFormed_pulseFront (run?_pulseFront hcell hwrite)
  have hpc : last.cpu.pc = 0 := by
    rw [hlast.pc]
    show UInt16.ofNat ((0xFFF8 : UInt16).toNat + Program.offset pulseFront 3) = 0
    decide
  have hbyte : last.ram.cells[last.cpu.pc.toNat]? = some 0x11 := by
    rw [hlast.ram, hpc]
    exact Ram.getElem?_write hwrite 0
  have hstep := Core.step_of_unassigned hlast.halted (by decide) hbyte
  refine ⟨m, after, 3 + 1, hm, hload, ?_⟩
  rw [runSlice_eq, Execution.slice_exit]
  show (after.core.run (3 + 1)).1 = .fault 3 (.illegalOpcode 0x11 0)
  rw [hcore, Core.run_add_of_calls 1 hcalls, Core.run_succ_of_error 0 hlast.halted hstep, hpc]
  rfl

/-- **Not every sample that is accepted can run.** -/
theorem accepted_samples_fault :
    FaultsOn overdrawn .pulse 4 (.illegalOpcode 0x14 0) ∧
    FaultsOn cramped .counter 2 (.memory 4 (.addressOutOfRange 0x9000 16)) ∧
    FaultsOn straddling .pulse 3 (.illegalOpcode 0x11 0) :=
  ⟨⟨_, _, 5, rfl, rfl, rfl⟩, ⟨_, _, 5, rfl, rfl, rfl⟩, pulse_faults_straddling⟩

end Machine

end VirtualPC
