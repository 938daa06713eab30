/-
VirtualPC/Proofs/Machine/Transition.lean

What an operation can do to a machine, said once.  `Transition m op answer after` lists the
ways an operation ends, one for each, with what it leaves behind; `transition_apply` says
that `Machine.apply` has no others.  An invariant of histories is then a case analysis on a
transition (`applyAll_induction`), and no proof about histories opens an operation again.

A tick is made of the other operations: a slice, a present where the layout says so, and a
sample of the display (`tick_eq_ok_iff`).
-/
import VirtualPC.Machine.Operation

namespace VirtualPC

/-- The exit of the run that an operation asked for. -/
def Answer.exit? : Answer → Option RunExit
  | .ran exit => some exit
  | .ticked report => some report.exit
  | .done | .failed _ | .refused _ | .rendered _ => none

namespace Machine

variable {m after : Machine} {op : Operation} {report : TickReport} {image : List UInt8}

/-! ### The operations one by one -/

/-- The machine whose surface, if the layout says so, has been presented. -/
def presented (m : Machine) : Except MachineError Machine :=
  match m.config.video with
  | .surface => m.present
  | .guest => .ok m

theorem present_eq (m : Machine) :
    m.present = match m.surface.present m.core.ram m.config.vramStart with
      | .error cause => .error (.memory cause)
      | .ok ram => .ok { m with core.ram := ram } := rfl

theorem present_eq_ok_iff :
    m.present = .ok after ↔ ∃ ram, m.surface.present m.core.ram m.config.vramStart = .ok ram ∧
      after = { m with core.ram := ram } := by
  rw [present_eq]
  rcases m.surface.present m.core.ram m.config.vramStart with cause | ram
  · simp
  · simp [eq_comm]

/-- Presenting, where it is done at all, writes RAM of the same size and nothing else. -/
theorem presented_eq_ok (h : m.presented = .ok after) :
    ∃ ram, ram.size = m.core.ram.size ∧ after = { m with core.ram := ram } := by
  unfold presented at h
  split at h
  · obtain ⟨ram, hram, rfl⟩ := present_eq_ok_iff.1 h
    exact ⟨ram, Ram.size_writeBlock hram, rfl⟩
  · cases h
    exact ⟨m.core.ram, rfl, rfl⟩

theorem loadProgram_eq_ok_iff :
    m.loadProgram image = .ok after ↔
      ∃ ram, m.core.ram.writeBlock m.config.loadAddress image = .ok ram ∧
        after = { m with
          core := ⟨Cpu.boot m.config.loadAddress, ram⟩, rom := image, lastFault := none } := by
  unfold loadProgram
  rcases m.core.ram.writeBlock m.config.loadAddress image with cause | ram
  · simp
  · simp [eq_comm, reboot]

/-- A sample loads exactly as its image does, once its name and the window are checked. -/
theorem loadSample_eq_ok_iff {name : String} :
    m.loadSample name = .ok after ↔
      ∃ sample, Sample.find? name = some sample ∧ sample.vramBytes ≤ m.config.vramLength ∧
        m.config.vramStart < guestSpace ∧
        m.config.vramStart + sample.vramBytes ≤ guestSpace ∧
        m.loadProgram (sample.image (UInt16.ofNat m.config.loadAddress)
          (UInt16.ofNat m.config.vramStart)) = .ok after := by
  unfold loadSample
  rcases Sample.find? name with _ | sample
  · simp
  · by_cases hlength : m.config.vramLength < sample.vramBytes
    · simp only [hlength, ↓reduceIte, reduceCtorEq, Option.some.injEq, false_iff]
      rintro ⟨_, rfl, hfits, -⟩
      omega
    -- the two tests on the reach of addresses are one disjunction
    · by_cases hreach : guestSpace ≤ m.config.vramStart ∨
          guestSpace < m.config.vramStart + sample.vramBytes
      · simp only [hlength, hreach, ↓reduceIte, reduceCtorEq, Option.some.injEq, false_iff]
        rintro ⟨_, rfl, -, hstart, hend, -⟩
        omega
      · simp only [hlength, hreach, ↓reduceIte, Option.some.injEq, exists_eq_left']
        constructor
        · intro h
          exact ⟨by omega, by omega, by omega, h⟩
        · rintro ⟨-, -, -, h⟩
          exact h

/-- A tick is a slice, a present where the layout says so, and a sample of the display. -/
theorem tick_eq (m : Machine) :
    m.tick = ((m.runSlice m.config.cyclesPerTick).2.presented >>= fun mid =>
      pure (⟨(m.runSlice m.config.cyclesPerTick).1, mid.render.1⟩,
        { mid.render.2 with ticks := mid.ticks + 1 })) := by
  rcases hrun : m.runSlice m.config.cyclesPerTick with ⟨exit, ran⟩
  rcases hvideo : ran.config.video with _ | _
  · simp only [tick, presented, hrun, hvideo]
    rfl
  · simp only [tick, presented, hrun, hvideo]
    rfl

theorem tick_eq_ok_iff :
    m.tick = .ok (report, after) ↔
      ∃ mid, (m.runSlice m.config.cyclesPerTick).2.presented = .ok mid ∧
        report = ⟨(m.runSlice m.config.cyclesPerTick).1, mid.render.1⟩ ∧
        after = { mid.render.2 with ticks := mid.ticks + 1 } := by
  rw [tick_eq]
  rcases (m.runSlice m.config.cyclesPerTick).2.presented with cause | mid
  · constructor
    · intro h
      cases h
    · rintro ⟨mid, hmid, -, -⟩
      cases hmid
  · constructor
    · intro h
      cases h
      exact ⟨mid, rfl, rfl, rfl⟩
    · rintro ⟨mid', hmid, rfl, rfl⟩
      cases hmid
      rfl

/-! ### Transitions -/

/-- The ways an operation ends, with its answer and what it leaves behind. -/
inductive Transition (m : Machine) : Operation → Answer → Machine → Prop
  | failed {op : Operation} (cause : MachineError) : Transition m op (.failed cause) m
  | refused {op : Operation} (cause : MemoryError) : Transition m op (.refused cause) m
  /-- A program or a sample was loaded, and the processor boots into it. -/
  | loaded {op : Operation} {image : List UInt8} {ram : Ram}
      (hop : op = .loadProgram image ∨ ∃ name, op = .loadSample name)
      (hram : m.core.ram.writeBlock m.config.loadAddress image = .ok ram) :
      Transition m op .done { m with
        core := ⟨Cpu.boot m.config.loadAddress, ram⟩, rom := image, lastFault := none }
  | rebooted : Transition m .reboot .done m.reboot
  | ran (budget : Nat) :
      Transition m (.runSlice budget) (.ran (m.runSlice budget).1) (m.runSlice budget).2
  /-- RAM was written from outside or by a present. -/
  | stored {op : Operation} {ram : Ram}
      (hop : op = .present ∨ (∃ address byte, op = .write address byte) ∨
        ∃ start block, op = .writeBlock start block)
      (hsize : ram.size = m.core.ram.size) : Transition m op .done { m with core.ram := ram }
  | rendered : Transition m .render (.rendered m.render.1) m.render.2
  | ticked {mid : Machine} (hmid : (m.runSlice m.config.cyclesPerTick).2.presented = .ok mid) :
      Transition m .tick
        (.ticked ⟨(m.runSlice m.config.cyclesPerTick).1, mid.render.1⟩)
        { mid.render.2 with ticks := mid.ticks + 1 }
  | drew (d : Drawing) : Transition m (.draw d) .done (m.draw d)

theorem transition_attempt {attempted : Except MachineError Machine}
    (hok : ∀ after, attempted = .ok after → Transition m op .done after) :
    Transition m op (m.attempt attempted).1 (m.attempt attempted).2 := by
  rcases attempted with cause | after
  · exact .failed cause
  · exact hok after rfl

theorem transition_attemptWrite {attempted : Except MemoryError Ram}
    (hok : ∀ ram, attempted = .ok ram → Transition m op .done { m with core.ram := ram }) :
    Transition m op (m.attemptWrite attempted).1 (m.attemptWrite attempted).2 := by
  rcases attempted with cause | ram
  · exact .refused cause
  · exact hok ram rfl

/-- **Every operation is a transition.** -/
theorem transition_apply (m : Machine) (op : Operation) :
    Transition m op (m.apply op).1 (m.apply op).2 := by
  cases op with
  | loadProgram image =>
    refine transition_attempt fun after h => ?_
    obtain ⟨ram, hram, rfl⟩ := loadProgram_eq_ok_iff.1 h
    exact .loaded (.inl rfl) hram
  | loadSample name =>
    refine transition_attempt fun after h => ?_
    obtain ⟨sample, -, -, -, -, h⟩ := loadSample_eq_ok_iff.1 h
    obtain ⟨ram, hram, rfl⟩ := loadProgram_eq_ok_iff.1 h
    exact .loaded (.inr ⟨name, rfl⟩) hram
  | reboot => exact .rebooted
  | runSlice budget => exact .ran budget
  | present =>
    refine transition_attempt fun after h => ?_
    obtain ⟨ram, hram, rfl⟩ := present_eq_ok_iff.1 h
    exact .stored (.inl rfl) (Ram.size_writeBlock hram)
  | render => exact .rendered
  | tick =>
    rcases h : m.tick with cause | ⟨report, after⟩
    · simp only [apply, h]
      exact .failed cause
    · obtain ⟨mid, hmid, rfl, rfl⟩ := tick_eq_ok_iff.1 h
      simp only [apply, h]
      exact .ticked hmid
  | write address byte =>
    refine transition_attemptWrite fun ram h => ?_
    exact .stored (.inr (.inl ⟨address, byte, rfl⟩)) (Ram.size_write h)
  | writeBlock start block =>
    refine transition_attemptWrite fun ram h => ?_
    exact .stored (.inr (.inr ⟨start, block, rfl⟩)) (Ram.size_writeBlock h)
  | draw d => exact .drew d

/-! ### Histories -/

/-- Operations with what came of each. -/
def history (m : Machine) (ops : List Operation) : List (Operation × Answer) :=
  ops.zip (m.applyAll ops).1

/-- What every operation preserves of a machine and its past, every history preserves. -/
theorem history_induction {P : List (Operation × Answer) → Machine → Prop}
    (hstep : ∀ {past m op answer after}, P past m → Transition m op answer after →
      P (past ++ [(op, answer)]) after)
    {past : List (Operation × Answer)} (h : P past m) (ops : List Operation) :
    P (past ++ m.history ops) (m.applyAll ops).2 := by
  induction ops generalizing past m with
  | nil =>
    show P (past ++ []) m
    rwa [List.append_nil]
  | cons op rest ih =>
    have hrest := ih (hstep h (transition_apply m op))
    rwa [List.append_assoc] at hrest

/-- What every operation preserves, every history preserves. -/
theorem applyAll_induction {P : Machine → Prop}
    (hstep : ∀ {m op answer after}, P m → Transition m op answer after → P after)
    (h : P m) (ops : List Operation) : P (m.applyAll ops).2 :=
  @history_induction m (fun _ m => P m) hstep [] h ops

end Machine

end VirtualPC
