/-
VirtualPC/Proofs/Command/Budget.lean

The result of a command does not depend on how its budget is cut into ticks.  Where the video
window belongs to the guest, the loop of ticks has run the guest for one slice of the whole budget,
wherever it stopped (`Emulation.run_of_guest`).  A command reports nothing of a machine but its
core, its ticks, the instructions executed and the fault, apart from the last frame.  So the report
is that of the uncut run, with the number of the last tick in it.

Main results: `perform_uncut`, for any options, and `report_uncut`, for the words of a command
line.  The second is the first, whatever the words were read by: all it asks is which options they
were read as.
-/
import VirtualPC.Proofs.Command.Session
import VirtualPC.Proofs.Command.Ticking
import VirtualPC.Proofs.Machine.Invariant

namespace VirtualPC.Command

variable {o : Options} {tree : FileTree} {m : Machine}

/-! ### What a report tells -/

/-- A program that has just been loaded has not ticked. -/
theorem Options.Loads.fresh (h : o.Loads tree m) : m.config = o.config ∧ m.ticks = 0 := by
  obtain ⟨blank, hcreate, hload⟩ := h
  have hblank : blank.config = o.config ∧ blank.ticks = 0 := by
    obtain ⟨-, ram, -, rfl⟩ := Machine.create_eq_ok_iff.1 hcreate
    exact ⟨rfl, rfl⟩
  obtain ⟨image, himage⟩ : ∃ image, blank.loadProgram image = .ok m := by
    rcases hrom : o.rom with _ | file
    · rw [hrom] at hload
      obtain ⟨sample, -, -, -, -, himage⟩ := Machine.loadSample_eq_ok_iff.1 hload
      exact ⟨_, himage⟩
    · rw [hrom] at hload
      obtain ⟨image, -, -, himage⟩ := hload
      exact ⟨image, himage⟩
  obtain ⟨ram, -, rfl⟩ := Machine.loadProgram_eq_ok_iff.1 himage
  exact hblank

/-- What is printed at the end tells of the core, the ticks and the instructions alone. -/
theorem closingLines_congr {e e' : Emulation} (hcore : e.machine.core = e'.machine.core)
    (hticks : e.machine.ticks = e'.machine.ticks) (hexecuted : e.executed = e'.executed) :
    o.closingLines e = o.closingLines e' := by
  have hsummary : e.summary = e'.summary := by
    unfold Emulation.summary
    rw [hcore, hticks, hexecuted]
  unfold Options.closingLines
  rw [hsummary, hcore]

theorem isSome_screen (o : Options) : o.screen.isSome = o.statusScreen := by
  rw [Options.screen]
  rcases o.statusScreen with _ | _ <;> rfl

/-- With its frame saved, a command fails exactly if its run has faulted. -/
theorem exitCode_ne_zero_iff (lines : List String) (exit : RunExit) :
    (Report.finished lines (exit.fault?.map guestFault)).exitCode ≠ 0
      ↔ ∃ n cause, exit = .fault n cause := by
  cases exit with
  | completed n => simp [RunExit.fault?, Report.exitCode]
  | halted n => simp [RunExit.fault?, Report.exitCode]
  | fault n cause => simp [RunExit.fault?, Report.exitCode]

theorem errors_guestFault (lines : List String) (cause : Fault) :
    (Report.finished lines (some (guestFault cause))).errors
      = textOfLines ["Error: guest fault: " ++ cause.message] := by
  show textOfLines ["Error: " ++ ("guest fault: " ++ cause.message)] = _
  rw [← String.append_assoc]
  rfl

/-! ### The uncut run -/

/-- The loop of ticks comes to one slice of the whole budget, in all that a command reports. -/
theorem exists_run_uncut (screen : Option String) {count : Nat} (hvideo : m.config.video = .guest)
    (hticks : m.ticks = 0) (hbudget : count * m.config.cyclesPerTick < sizeLimit) :
    let whole := m.runSlice (count * m.config.cyclesPerTick)
    let last := Emulation.lastTick screen.isSome m count
    ∃ e, Emulation.run screen count (Emulation.start m) = .ok e ∧
      e.machine.core = whole.2.core ∧ e.machine.ticks = last ∧
      e.executed = whole.1.executed ∧ e.fault = whole.1.fault? ∧
      e.machine.display = (m.afterTicks last).display := by
  intro whole last
  have hwhole : whole.1 = (m.execution.slice (count * m.config.cyclesPerTick)).1 ∧
      whole.2.core = (m.execution.slice (count * m.config.cyclesPerTick)).2.core := by
    show (m.runSlice _).1 = _ ∧ (m.runSlice _).2.core = _
    rw [Machine.runSlice_eq]
    exact ⟨rfl, rfl⟩
  have hlast : (m.afterTicks last).ticks = last := by
    rw [Machine.ticks_afterTicks hvideo, hticks, Nat.zero_add]
  obtain ⟨hcore, drawn, hrun⟩ := Emulation.run_of_guest screen hvideo count 0
    (by rwa [Nat.zero_add]) m.surface
  rw [Nat.zero_add] at hrun
  refine ⟨_, hrun, ?_, hlast, ?_, ?_, rfl⟩
  · exact hcore.trans hwhole.2.symm
  · exact congrArg RunExit.executed hwhole.1.symm
  · exact congrArg RunExit.fault? hwhole.1.symm

/-- **A command does not depend on how the budget is cut into ticks.**  Take any options that run
a program and leave the window to the guest.  What is printed, and how the command fails, is what
it would be after one slice of the whole budget, but for the number of ticks in the summary; the
frame that is saved is that of the last tick. -/
theorem perform_uncut (hlist : o.listPrograms = false) (hinstall : o.installSamples = none)
    (hvideo : o.config.video = .guest)
    (hbudget : o.ticks.getD 60 * o.config.cyclesPerTick < sizeLimit) (hload : o.Loads tree m) :
    let count := o.ticks.getD 60
    let whole := m.runSlice (count * o.config.cyclesPerTick)
    let last := Emulation.lastTick o.statusScreen m count
    let uncut : Emulation := ⟨{ whole.2 with ticks := last }, whole.1.executed, whole.1.fault?⟩
    let saved := o.saveFrame (m.afterTicks last).display.picture tree
    (perform o : TreeSession Unit) #[] tree = ((ended (o.failure saved.1 uncut.fault),
      (o.openingLines m ++ o.closingLines uncut).toArray), saved.2) := by
  intro count whole last uncut saved
  obtain ⟨hconfig, hticks⟩ := hload.fresh
  have hrun := exists_run_uncut o.screen (hconfig ▸ hvideo) hticks (hconfig ▸ hbudget)
  rw [hconfig, isSome_screen] at hrun
  obtain ⟨e, hrun, hcore, hlast, hexecuted, hfault, hdisplay⟩ := hrun
  have hclosing : o.closingLines e = o.closingLines uncut :=
    closingLines_congr hcore hlast hexecuted
  have hperform := perform_of_loads hlist hinstall hload hrun
  rw [hclosing, hfault, hdisplay] at hperform
  exact hperform

/-- **The report does not depend on how the budget is cut into ticks.**  It is the report of the
machine that has just been loaded after one slice of the whole budget, but for the number of ticks
in it, which is that of the first tick to fault or, without the status screen, to find the
processor halted at its end, or of the last tick.  Unless the last frame cannot be saved, the
command fails exactly if that slice faults, and names its fault. -/
theorem report_uncut {words : List String} (hwords : Options.ofWords words = .ok o)
    (hlist : o.listPrograms = false) (hinstall : o.installSamples = none)
    (hvideo : o.config.video = .guest)
    (hbudget : o.ticks.getD 60 * o.config.cyclesPerTick < sizeLimit) (hload : o.Loads tree m) :
    let count := o.ticks.getD 60
    let whole := m.runSlice (count * o.config.cyclesPerTick)
    let last := Emulation.lastTick o.statusScreen m count
    let uncut : Emulation := ⟨{ whole.2 with ticks := last }, whole.1.executed, whole.1.fault?⟩
    let saved := o.saveFrame (m.afterTicks last).display.picture tree
    let report := ((run words : StateM FileTree Report) tree).1
    report = .finished (o.openingLines m ++ o.closingLines uncut) (o.failure saved.1 uncut.fault) ∧
    (saved.1 = .ok () →
      (report.exitCode ≠ 0 ↔ ∃ n cause, whole.1 = .fault n cause) ∧
      ∀ n cause, whole.1 = .fault n cause →
        report.errors = textOfLines ["Error: guest fault: " ++ cause.message]) := by
  intro count whole last uncut saved report
  have hperform := perform_uncut hlist hinstall hvideo hbudget hload
  have hfinished : report
      = .finished (o.openingLines m ++ o.closingLines uncut) (o.failure saved.1 uncut.fault) :=
    congrArg Prod.fst (run_of_perform hwords hperform)
  refine ⟨hfinished, fun hsaved => ?_⟩
  rw [hfinished, hsaved]
  refine ⟨exitCode_ne_zero_iff _ whole.1, fun n cause hfault => ?_⟩
  have hcause : uncut.fault = some cause := congrArg RunExit.fault? hfault
  rw [hcause]
  exact errors_guestFault _ cause

/-- A program that stores to its last cell of RAM and then comes to a byte that is no opcode. -/
def strayTree : FileTree :=
  ⟨[(FileTree.home ++ ["stray"], .file (.bytes [0x01, 0x07, 0x02, 0x00, 0x0F, 0x11]))]⟩

/-- A command line that runs it for at most three ticks of two instructions. -/
def strayWords : List String :=
  ["--rom", "stray", "--ram=16", "--vram-start=8", "--width=2", "--height=2", "--ticks=3",
    "--cycles-per-tick=2", "--dump-ram=0", "--dump-lines=1"]

/-- What these words ask for. -/
def strayOptions : Options where
  rom := some "stray"
  ram := some 16
  vramStart := some 8
  width := some 2
  height := some 2
  ticks := some 3
  cyclesPerTick := some 2
  dumpRam := some 0
  dumpLines := some 1

/-- The machine as it is loaded. -/
def strayMachine : Machine where
  config := strayOptions.config
  core := ⟨Cpu.boot 0, ⟨#[1, 7, 2, 0, 15, 17, 0, 0, 0, 0, 0, 0, 0, 0, 0, 0], by decide⟩⟩
  surface := Surface.blank 2 2
  display := Display.blank 2 2 8 Palette.standard
  rom := [1, 7, 2, 0, 15, 17]
  ticks := 0
  lastFault := none

theorem stray_faults_in_second_tick :
    Options.ofWords strayWords = .ok strayOptions ∧ strayOptions.config.video = .guest ∧
    strayOptions.Loads strayTree strayMachine ∧
    (strayMachine.runSlice 6).1 = .fault 2 (.illegalOpcode 0x11 5) ∧
    ((run strayWords : StateM FileTree Report) strayTree).1 = .finished
      ["ticks=2 executed=2 pc=0x0006 a=0x07 halted=true",
        "0000: 01 07 02 00 0F 11 00 00 00 00 00 00 00 00 00 07"]
      (some ⟨"guest fault: unknown opcode 0x11 at PC=0x0005", []⟩) := by
  have hwords : Options.ofWords strayWords = .ok strayOptions := rfl
  have hload : strayOptions.Loads strayTree strayMachine :=
    ⟨_, rfl, _, rfl, List.cons_ne_nil _ _, rfl⟩
  obtain ⟨hreport, -⟩ := report_uncut hwords rfl rfl rfl (by decide) hload
  exact ⟨hwords, rfl, hload, rfl, hreport.trans (by decide +kernel)⟩

end VirtualPC.Command
