/-
VirtualPC/Proofs/Machine/SampleOutcomes.lean

What the samples do on a machine, in closed form and for runs of any length.  A sample that has
been loaded with room around it is a well-formed program about to start
(`wellFormed_of_loadSample`), so the processor follows it and a run is told by the rounds of
the program:

    painting   2 * j instructions           j cells of the window are painted
               2 * count + 1, or more       all of them are, and the processor is halted
    looping    lead + period * j            j rounds are done (`AfterRounds`)

A loop has no end: a budget ends inside some round, and a run that completes has completed
within every smaller budget.

Main results: the painting samples paint their part of the window and nothing else
(`painting_samples_paint`), and the looping samples have done so many rounds
(`looping_samples_loop`).
-/
import VirtualPC.Proofs.Core.Iteration
import VirtualPC.Proofs.Machine.SampleRuns
import VirtualPC.Proofs.Program.SampleRounds

namespace VirtualPC

open Program

namespace Sample

variable {base vram : UInt16} {s : Sample} {c : Config} {core : Core} {count : Nat}
  {colour : Nat → UInt8} {lead period : Nat}

/-! ### Painting -/

/-- The samples that paint: how many cells of the window, and in which colours. -/
inductive Paints : Sample → (count : Nat) → (colour : Nat → UInt8) → Prop
  | vramFill : Paints vramFill 256 fun _ => 0xE0
  | checkerboard : Paints checkerboard 512 fun i => if i % 2 = 0 then 1 else 0

theorem Paints.program_eq (h : s.Paints count colour) :
    s.program base vram = painting vram count colour := by
  cases h <;> rfl

theorem Paints.vramBytes_eq (h : s.Paints count colour) : s.vramBytes = count := by
  cases h <;> rfl

/-- What a painting sample stores to is what it paints. -/
theorem Paints.stores_iff (h : s.Paints count colour) {start address : Nat} :
    s.Stores start address ↔ start ≤ address ∧ address < start + count := by
  rw [Stores, h.vramBytes_eq]
  cases h <;> simp

/-! ### Looping -/

/-- The samples that loop: how many instructions come before the loop and how many a round of
it has. -/
inductive Loops : Sample → (lead period : Nat) → Prop
  | demo : Loops demo 1 2
  | counter : Loops counter 1 3
  | pulse : Loops pulse 0 4

/-- Where a looping sample stands after `j` rounds, loaded for a layout and started on `ram`. -/
inductive AfterRounds (c : Config) (ram : Ram) (j : Nat) : Sample → Core → Prop
  /-- The rounds are counted in the accumulator. -/
  | demo {core : Core} (pc : core.cpu.pc.toNat = c.loadAddress + 2)
      (acc : core.cpu.acc.toNat = j % 256) (ram_eq : core.ram = ram) :
      AfterRounds c ram j demo core
  /-- The rounds are counted in the accumulator, and the cell of the count holds the same but
  before the first of them. -/
  | counter {core : Core} {old : UInt8} (held : ram.cells[counterAddress.toNat]? = some old)
      (pc : core.cpu.pc.toNat = c.loadAddress + 2) (acc : core.cpu.acc.toNat = j % 256)
      (patched : ram.Patched counterAddress.toNat 1
        (fun _ => if j = 0 then old else core.cpu.acc) core.ram) :
      AfterRounds c ram j counter core
  /-- Each round has added 17 to the first pixel, and left it in the accumulator. -/
  | pulse {core : Core} {old pixel : UInt8} (held : ram.cells[c.vramStart]? = some old)
      (pc : core.cpu.pc.toNat = c.loadAddress)
      (pixel_eq : pixel.toNat = (old.toNat + 17 * j) % 256)
      (patched : ram.Patched c.vramStart 1 (fun _ => pixel) core.ram)
      (acc : 0 < j → core.cpu.acc = pixel) :
      AfterRounds c ram j pulse core

/-- Inside a program that ends below 64 KiB the counter does not go round. -/
theorem toNat_pc_of_matches {program : List Instruction} {t : State} {size : Nat}
    (hp : WellFormed base.toNat size program) (h : Matches base program t core)
    (hlt : t.index < program.length) :
    core.cpu.pc.toNat = base.toNat + offset program t.index := by
  rw [← toNat_label hp.reachable hlt, h.pc, UInt16.ofNat_add, UInt16.ofNat_toNat]

/-- **A looping sample goes round**: a run of so many rounds completes and has done them. -/
theorem Loops.exists_afterRounds (hloops : s.Loops lead period)
    (hbase : base.toNat = c.loadAddress) (hvram : vram.toNat = c.vramStart)
    (hp : WellFormed base.toNat core.ram.size (s.program base vram))
    (hstart : Matches base (s.program base vram) (State.start core.ram) core) (j : Nat) :
    ∃ last, core.run (lead + period * j) = (.completed (lead + period * j), last) ∧
      AfterRounds c core.ram j s last := by
  cases hloops with
  | demo =>
    obtain ⟨last, hrun, hlast⟩ := hstart.run_completed hp (reaches_demo hp.reachable core.ram j) rfl
    have hpc := toNat_pc_of_matches hp hlast (show 1 < 3 by decide)
    refine ⟨last, hrun, .demo (hbase ▸ hpc) ?_ hlast.ram⟩
    rw [hlast.acc]
    exact UInt8.toNat_ofNat'
  | counter =>
    have hroom : counterAddress.toNat < core.ram.size :=
      (hp.stores counterAddress (by simp [program])).1
    obtain ⟨old, hcell⟩ := Ram.getElem?_isSome hroom
    obtain ⟨_, hreaches, ram, rfl, hpatched⟩ := reaches_counter hp.reachable hcell j
    obtain ⟨last, hrun, hlast⟩ := hstart.run_completed hp hreaches rfl
    have hpc := toNat_pc_of_matches hp hlast (show 1 < 4 by decide)
    refine ⟨last, hrun, .counter hcell (hbase ▸ hpc) ?_ ?_⟩
    · rw [hlast.acc]
      exact UInt8.toNat_ofNat'
    · rw [hlast.acc, hlast.ram]
      exact hpatched
  | pulse =>
    have hroom : vram.toNat < core.ram.size := hp.loads vram (by simp [program])
    obtain ⟨old, hcell⟩ := Ram.getElem?_isSome hroom
    obtain ⟨_, hreaches, acc, ram, rfl, hpatched, hacc⟩ := reaches_pulse hp.reachable hcell j
    rw [← Nat.zero_add (4 * j)] at hreaches
    obtain ⟨last, hrun, hlast⟩ := hstart.run_completed hp hreaches rfl
    have hpc := toNat_pc_of_matches hp hlast (show 0 < 4 by decide)
    obtain rfl : last.ram = ram := hlast.ram
    rw [hvram] at hcell hpatched
    refine ⟨last, hrun, .pulse hcell (hbase ▸ hpc) ?_ hpatched ?_⟩
    · rw [UInt8.toNat_add, UInt8.toNat_ofNat']
      omega
    · intro hj
      rw [hlast.acc]
      exact hacc hj

/-- A round has at least one instruction. -/
theorem Loops.le_lead_add (hloops : s.Loops lead period) (n : Nat) : n ≤ lead + period * n := by
  cases hloops <;> omega

end Sample

namespace Machine

variable {c : Config} {m after : Machine} {name : String} {sample : Sample}

/-- A sample that has room is loaded and about to start. -/
theorem matches_of_loadSample (hm : create c = .ok m) (ops : List Operation)
    (hfind : Sample.find? name = some sample)
    (hload : (m.applyAll ops).2.loadSample name = .ok after)
    (hreach : c.loadAddress + after.rom.length ≤ guestSpace)
    (hcounter : sample = .counter → Sample.counterAddress.toNat < c.ramSize)
    (hoff : ∀ address, sample.Stores c.vramStart address →
      ¬ (c.loadAddress ≤ address ∧ address < c.loadAddress + after.rom.length)) :
    ∃ base vram : UInt16, base.toNat = c.loadAddress ∧ vram.toNat = c.vramStart ∧
      after.core.ram.size = c.ramSize ∧
      WellFormed base.toNat c.ramSize (sample.program base vram) ∧
      Matches base (sample.program base vram) (State.start after.core.ram) after.core := by
  obtain ⟨base, vram, ram, hbase, hvram, hp, hram, hcore⟩ :=
    wellFormed_of_loadSample hm ops hfind hload hreach hcounter hoff
  rw [hcore]
  refine ⟨base, vram, hbase, hvram, ?_, hp, matches_start hram⟩
  exact (Ram.size_writeBlock hram).trans (layout_of_create hm ops).2.1

/-- A sample that is loaded is as long as its instructions. -/
theorem length_rom_of_loadSample (hm : create c = .ok m) (ops : List Operation)
    (hfind : Sample.find? name = some sample)
    (hload : (m.applyAll ops).2.loadSample name = .ok after) {size : Nat}
    (hsize : ∀ base vram, (Instruction.encodeAll (sample.program base vram)).length = size) :
    after.rom.length = size := by
  obtain ⟨base, vram, -, -, -, -, -, hrom, -⟩ := writeBlock_of_loadSample hm ops hfind hload
  rw [hrom, hsize]

/-- **The painting samples paint exactly their window.**  Take a machine with any history that
has loaded one of the two, with the image inside the guest space and the cells it paints off
the image.  A slice of two instructions for each of `j` cells executes them all and has painted
the first `j` cells; every slice that is longer than the whole painting ends halted, after one
more instruction than that, and has painted all of them.  Nothing else has changed in RAM or
in the machine. -/
theorem painting_samples_paint (c : Config) (m : Machine) (hm : create c = .ok m)
    (ops : List Operation) (name : String) (sample : Sample)
    (hfind : Sample.find? name = some sample) (after : Machine)
    (hload : (m.applyAll ops).2.loadSample name = .ok after)
    (count : Nat) (colour : Nat → UInt8) (hpaints : sample.Paints count colour)
    (hreach : c.loadAddress + after.rom.length ≤ guestSpace)
    (hoff : ∀ address, c.vramStart ≤ address → address < c.vramStart + count →
      ¬ (c.loadAddress ≤ address ∧ address < c.loadAddress + after.rom.length)) :
    (∀ j ≤ count, ∃ core,
      after.runSlice (2 * j) = (.completed (2 * j), { after with core := core }) ∧
      after.core.ram.Patched c.vramStart j colour core.ram) ∧
    ∃ core, (∀ n, 2 * count + 1 ≤ n →
      after.runSlice n = (.halted (2 * count + 1), { after with core := core })) ∧
      after.core.ram.Patched c.vramStart count colour core.ram := by
  have hcounter : sample = .counter → Sample.counterAddress.toNat < c.ramSize := by
    rintro rfl
    cases hpaints
  have hstores : ∀ address, sample.Stores c.vramStart address →
      ¬ (c.loadAddress ≤ address ∧ address < c.loadAddress + after.rom.length) := by
    intro address h
    obtain ⟨hge, hlt⟩ := hpaints.stores_iff.1 h
    exact hoff address hge hlt
  obtain ⟨-, -, -, -, -, -, -, -, hdrawn, hroom⟩ := writeBlock_of_loadSample hm ops hfind hload
  obtain ⟨base, vram, -, hvram, hsize, hp, hstart⟩ :=
    matches_of_loadSample hm ops hfind hload hreach hcounter hstores
  rw [hpaints.vramBytes_eq, ← hvram] at hdrawn hroom
  rw [← hsize] at hroom
  rw [hpaints.program_eq] at hp hstart
  rw [← hvram]
  constructor
  · intro j hj
    obtain ⟨_, hreaches, acc, ram, rfl, hpatched⟩ :=
      Sample.reaches_stroked base colour hdrawn hroom j hj
    obtain ⟨last, hrun, hlast⟩ := hstart.run_completed hp hreaches rfl
    obtain rfl : last.ram = ram := hlast.ram
    exact ⟨last, runSlice_of_run hrun rfl, hpatched⟩
  · obtain ⟨s, hreaches, hstop, hpatched⟩ := Sample.reaches_painted base colour hdrawn hroom
    obtain ⟨last, hrun, hlast⟩ := hstart.run_halted hp hreaches hstop
    rw [← hlast.ram] at hpatched
    exact ⟨last, fun n hn => runSlice_of_run (hrun n hn) rfl, hpatched⟩

/-- `checkerboard` behind the first page of a machine whose window was not clear. -/
theorem checkerboard_alternates : ∃ m after, create { loadAddress := 0x100 } = .ok m ∧
    (m.applyAll [.write 0x8001 7]).2.loadSample "checkerboard" = .ok after ∧
    (∀ j ≤ 512, ∃ core,
      after.runSlice (2 * j) = (.completed (2 * j), { after with core := core }) ∧
      after.core.ram.Patched 0x8000 j (fun i => if i % 2 = 0 then 1 else 0) core.ram) ∧
    ∃ core, (∀ n, 1025 ≤ n →
      after.runSlice n = (.halted 1025, { after with core := core })) ∧
      after.core.ram.Patched 0x8000 512 (fun i => if i % 2 = 0 then 1 else 0) core.ram := by
  obtain ⟨m, hm⟩ : ∃ m, create { loadAddress := 0x100 } = .ok m := ⟨_, rfl⟩
  have hfind : Sample.find? "checkerboard" = some .checkerboard := Sample.find?_name .checkerboard
  have hlength (base vram : UInt16) :
      (Instruction.encodeAll (Sample.checkerboard.program base vram)).length = 2561 :=
    Sample.length_encodeAll_painting vram 512 _
  obtain ⟨after, hload⟩ := exists_loadSample hm [.write 0x8001 7] hfind
    (by decide) (by decide) (by decide)
    (by rw [Sample.image_eq_encodeAll, hlength]; decide)
  have hrom := length_rom_of_loadSample hm _ hfind hload hlength
  refine ⟨m, after, hm, hload, painting_samples_paint _ m hm _ _ .checkerboard hfind after
    hload 512 _ .checkerboard ?_ ?_⟩
  · rw [hrom]
    decide
  · rw [hrom]
    rintro address hge - ⟨-, hlt⟩
    exact absurd (Nat.lt_of_le_of_lt hge hlt) (by decide)

/-- **The looping samples loop**, and what they have done is known after any number of rounds.
Take a machine with any history that has loaded one of the three, with the image inside the
guest space, `counterAddress` inside RAM and off the image in the case of `counter`, and the
first pixel off the image in the case of `pulse`.  A slice of so many rounds executes them all
and leaves what `AfterRounds` says; a slice of any length executes all its instructions, so
none of these samples ever halts or faults. -/
theorem looping_samples_loop (c : Config) (m : Machine) (hm : create c = .ok m)
    (ops : List Operation) (name : String) (sample : Sample)
    (hfind : Sample.find? name = some sample) (after : Machine)
    (hload : (m.applyAll ops).2.loadSample name = .ok after)
    (lead period : Nat) (hloops : sample.Loops lead period)
    (hreach : c.loadAddress + after.rom.length ≤ guestSpace)
    (hcounter : sample = .counter → Sample.counterAddress.toNat < c.ramSize)
    (hoff : ∀ address, sample.Stores c.vramStart address →
      ¬ (c.loadAddress ≤ address ∧ address < c.loadAddress + after.rom.length)) :
    (∀ j, ∃ core, after.runSlice (lead + period * j)
        = (.completed (lead + period * j), { after with core := core }) ∧
      Sample.AfterRounds c after.core.ram j sample core) ∧
    ∀ n, ∃ core, after.runSlice n = (.completed n, { after with core := core }) := by
  obtain ⟨base, vram, hbase, hvram, hsize, hp, hstart⟩ :=
    matches_of_loadSample hm ops hfind hload hreach hcounter hoff
  rw [← hsize] at hp
  have hrounds := hloops.exists_afterRounds hbase hvram hp hstart
  constructor
  · intro j
    obtain ⟨last, hrun, hlast⟩ := hrounds j
    exact ⟨last, runSlice_of_run hrun rfl, hlast⟩
  · intro n
    -- the budget ends inside the first `n` rounds
    obtain ⟨last, hrun, -⟩ := hrounds n
    obtain ⟨mid, hmid⟩ := Core.run_of_le hrun (hloops.le_lead_add n)
    exact ⟨mid, runSlice_of_run hmid rfl⟩

/-- `counter` behind the first page of a machine that had something else in its cell. -/
theorem counter_counts : ∃ m after, create { loadAddress := 0x100 } = .ok m ∧
    (m.applyAll [.write 0x9000 7]).2.loadSample "counter" = .ok after ∧
    (∀ j, ∃ core, after.runSlice (1 + 3 * j)
        = (.completed (1 + 3 * j), { after with core := core }) ∧
      Sample.AfterRounds { loadAddress := 0x100 } after.core.ram j .counter core) ∧
    ∀ n, ∃ core, after.runSlice n = (.completed n, { after with core := core }) := by
  obtain ⟨m, hm⟩ : ∃ m, create { loadAddress := 0x100 } = .ok m := ⟨_, rfl⟩
  have hfind : Sample.find? "counter" = some .counter := Sample.find?_name .counter
  obtain ⟨after, hload⟩ := exists_loadSample hm [.write 0x9000 7] hfind
    (by decide) (by decide) (by decide) (by decide)
  have hrom : after.rom.length = 10 :=
    length_rom_of_loadSample hm _ hfind hload fun _ _ => rfl
  refine ⟨m, after, hm, hload, looping_samples_loop _ m hm _ _ .counter hfind after hload
    1 3 .counter ?_ ?_ ?_⟩
  · rw [hrom]
    decide
  · intro _
    decide
  · rw [hrom]
    rintro address (⟨-, rfl⟩ | ⟨hge, hlt⟩)
    · decide
    · exact absurd hlt (Nat.not_lt.2 hge)

end Machine

end VirtualPC
