/-
VirtualPC/Proofs/Program/Refinement.lean

An assembled program does what its instructions say.  The processor, which fetches bytes at
a 16-bit counter out of RAM that its own stores may change, follows the machine of
`VirtualPC.Program`, which has an index into a list.

The two are tied by `Matches base program s core`: the accumulators, RAMs and halt flags
agree, the counter stands at the address of the next instruction, and the code in RAM is
intact.  The last part is what lets the fetch be decoded; a well-formed program keeps it
because its stores stay off the code.

Main result: loading the image of a well-formed program succeeds, and every run of `n` steps
of its instructions is matched by `n` calls of `Core.step` (`calls_of_assembled`).
-/
import VirtualPC.Assembler
import VirtualPC.Proofs.Core.Fetch
import VirtualPC.Proofs.Core.Run
import VirtualPC.Proofs.Program.Reference

namespace VirtualPC.Program

variable {base : UInt16} {size n : Nat} {program trace : List Instruction} {s after : State}
variable {core : Core} {i : Instruction}

/-- The core stands where the program stands: between two instructions, with its code
intact. -/
structure Matches (base : UInt16) (program : List Instruction) (s : State) (core : Core) :
    Prop where
  ram : core.ram = s.ram
  acc : core.cpu.acc = s.acc
  halted : core.cpu.halted = s.stopped
  pc : core.cpu.pc = UInt16.ofNat (base.toNat + offset program s.index)
  /-- RAM holds the image at the base address. -/
  code : ∀ k < (Instruction.encodeAll program).length,
    s.ram.cells[base.toNat + k]? = (Instruction.encodeAll program)[k]?

/-! ### The next instruction is fetched -/

/-- The program counter stands at the encoding of the next instruction. -/
theorem Matches.holds (hp : WellFormed base.toNat size program) (h : Matches base program s core)
    (hi : program[s.index]? = some i) : Core.Holds core.ram core.cpu.pc i.encode := by
  intro k byte hbyte
  have hk : k < i.width := by simpa using (List.getElem?_eq_some_iff.1 hbyte).1
  have hlt := offset_lt_length hi hk
  -- the code ends below 64 KiB, so the counter does not go round inside an instruction
  have haddress : (core.cpu.pc + UInt16.ofNat k).toNat
      = base.toNat + (offset program s.index + k) := by
    have := hp.reachable
    rw [h.pc, ← UInt16.ofNat_add, UInt16.toNat_ofNat']
    unfold guestSpace at this
    omega
  rw [haddress, h.ram, h.code _ hlt, getElem?_encodeAll hi hk, hbyte]

theorem opcode?_of_mem (hp : WellFormed base.toNat size program) (hi : i ∈ program) :
    ∃ op, i.opcode? = some op := by
  cases i with
  | unknown byte => exact absurd hi (hp.known byte)
  | _ => exact ⟨_, rfl⟩

/-! ### What keeps the two machines together -/

/-- Past the next instruction, the counter is the address of the one after it. -/
theorem Matches.advance (h : Matches base program s core) (hi : program[s.index]? = some i) :
    Matches base program s.next (core.advance i.width) where
  ram := h.ram
  acc := h.acc
  halted := h.halted
  pc := by
    rw [Core.advance_pc, h.pc, ← UInt16.ofNat_add, Nat.add_assoc, ← offset_succ hi]
    rfl
  code := h.code

theorem Matches.setAcc (h : Matches base program s core) (value : UInt8) :
    Matches base program { s with acc := value } { core with cpu.acc := value } :=
  ⟨h.ram, rfl, h.halted, h.pc, h.code⟩

theorem Matches.stop (h : Matches base program s core) :
    Matches base program { s with stopped := true } { core with cpu.halted := true } :=
  ⟨h.ram, h.acc, rfl, h.pc, h.code⟩

theorem Matches.jump (h : Matches base program s core) {index : Nat} {target : UInt16}
    (htarget : base.toNat + offset program index = target.toNat) :
    Matches base program { s with index := index } { core with cpu.pc := target } where
  ram := h.ram
  acc := h.acc
  halted := h.halted
  pc := by
    rw [htarget, UInt16.ofNat_toNat]
  code := h.code

/-- A store off the code leaves the code intact. -/
theorem Matches.store (h : Matches base program s core) {address : Nat} {ram : Ram}
    (hwrite : s.ram.write address s.acc = .ok ram)
    (hoff : ¬ (base.toNat ≤ address ∧
      address < base.toNat + (Instruction.encodeAll program).length)) :
    Matches base program { s with ram := ram } { core with ram := ram } where
  ram := rfl
  acc := h.acc
  halted := h.halted
  pc := h.pc
  code := by
    intro k hk
    rw [Ram.getElem?_write hwrite, if_neg (by omega), h.code k hk]

/-! ### Steps -/

/-- Carrying out the next instruction keeps the two machines together. -/
theorem Matches.execute (hp : WellFormed base.toNat size program)
    (h : Matches base program s core) (hi : program[s.index]? = some i)
    (hafter : carryOut? base.toNat program s i = some after) (pc : UInt16) :
    ∃ last, Core.execute pc i (core.advance i.width) = .ok (.executed i) last ∧
      Matches base program after last := by
  -- an instruction is carried out with the counter past it already, as in `State.next`
  have hnext := h.advance hi
  cases i with
  | nop =>
    cases hafter
    exact ⟨_, rfl, hnext⟩
  | loadImmediate value =>
    cases hafter
    exact ⟨_, rfl, hnext.setAcc value⟩
  | addImmediate value =>
    cases hafter
    exact ⟨_, rfl, h.acc ▸ hnext.setAcc (core.cpu.acc + value)⟩
  | subImmediate value =>
    cases hafter
    exact ⟨_, rfl, h.acc ▸ hnext.setAcc (core.cpu.acc - value)⟩
  | halt =>
    cases hafter
    exact ⟨_, rfl, hnext.stop⟩
  | unknown byte => cases hafter
  | load address =>
    obtain ⟨byte, hbyte, rfl⟩ := Option.map_eq_some_iff.1 hafter
    have hread : (core.advance (Instruction.load address).width).ram.read address.toNat
        = .ok byte := by
      rw [hnext.ram]
      exact Ram.read_eq_ok_iff.2 hbyte
    refine ⟨_, ?_, hnext.setAcc byte⟩
    simp only [Core.execute, hread]
  | store address =>
    obtain ⟨ram, hwrite, rfl⟩ := carryOut?_store.1 hafter
    refine ⟨_, ?_, hnext.store hwrite (hp.stores address (List.mem_of_getElem? hi)).2⟩
    simp only [Core.execute, hnext.ram, hnext.acc, State.next, hwrite]
  | jump target =>
    obtain ⟨index, hindex, rfl⟩ := Option.map_eq_some_iff.1 hafter
    exact ⟨_, rfl, hnext.jump (indexAt?_eq_some_iff.1 hindex).2⟩
  | jumpIfZero target =>
    by_cases hacc : s.acc = 0
    · rw [carryOut?, if_pos hacc] at hafter
      obtain ⟨index, hindex, rfl⟩ := Option.map_eq_some_iff.1 hafter
      refine ⟨_, ?_, hnext.jump (indexAt?_eq_some_iff.1 hindex).2⟩
      rw [Core.execute, Core.advance_acc, h.acc, if_pos hacc]
    · rw [carryOut?, if_neg hacc] at hafter
      cases hafter
      refine ⟨_, ?_, hnext⟩
      rw [Core.execute, Core.advance_acc, h.acc, if_neg hacc]

/-- A step of the program is a call of `step`, and keeps the two machines together. -/
theorem Matches.step (hp : WellFormed base.toNat size program)
    (h : Matches base program s core)
    (hstep : step? base.toNat program s = some (i, after)) :
    ∃ last, Core.step core = .ok (.executed i) last ∧ Matches base program after last := by
  obtain ⟨hrun, hi, hafter⟩ := step?_eq_some_iff.1 hstep
  -- the code is intact, so what the processor fetches is the instruction of the index
  obtain ⟨op, hop⟩ := opcode?_of_mem hp (List.mem_of_getElem? hi)
  rw [Core.step_of_holds (h.halted.trans hrun) hop (h.holds hp hi)]
  exact h.execute hp hi hafter core.cpu.pc

/-! ### Runs -/

/-- `n` steps of the program are `n` calls of `step`. -/
theorem Matches.run (hp : WellFormed base.toNat size program)
    (h : Matches base program s core)
    (hrun : run? base.toNat program n s = some (trace, after)) :
    ∃ last, Core.calls n core = (trace.map fun i => .ok (.executed i), last) ∧
      Matches base program after last := by
  induction n generalizing s core trace with
  | zero =>
    cases hrun
    exact ⟨core, rfl, h⟩
  | succ n ih =>
    obtain ⟨⟨i, next⟩, hstep, hrun⟩ := Option.bind_eq_some_iff.1 hrun
    obtain ⟨⟨rest, final⟩, hrest, hrun⟩ := Option.bind_eq_some_iff.1 hrun
    cases hrun
    obtain ⟨mid, hcall, hmid⟩ := h.step hp hstep
    obtain ⟨last, hcalls, hlast⟩ := ih hmid hrest
    refine ⟨last, ?_, hlast⟩
    rw [Core.calls, Core.call_of_ok hcall, hcalls]
    rfl

/-- The image just loaded, at the base address the processor starts from.  Other bytes may be
loaded behind it. -/
theorem matches_start_append {before loaded : Ram} {rest : List UInt8}
    (hload : before.writeBlock base.toNat (Instruction.encodeAll program ++ rest) = .ok loaded) :
    Matches base program (State.start loaded) ⟨Cpu.boot base.toNat, loaded⟩ where
  ram := rfl
  acc := rfl
  halted := rfl
  pc := by
    show UInt16.ofNat base.toNat = UInt16.ofNat (base.toNat + offset program 0)
    rw [offset_zero, Nat.add_zero]
  code := by
    intro k hk
    show loaded.cells[base.toNat + k]? = _
    rw [Ram.getElem?_writeBlock hload, List.length_append, if_pos (by omega),
      Nat.add_sub_cancel_left, List.getElem?_append_left hk]

theorem matches_start {before loaded : Ram}
    (hload : before.writeBlock base.toNat (Instruction.encodeAll program) = .ok loaded) :
    Matches base program (State.start loaded) ⟨Cpu.boot base.toNat, loaded⟩ :=
  matches_start_append (by rwa [List.append_nil])

/-- **An assembled program does what its instructions say.**  The image of a well-formed
program can be loaded, whatever else is in RAM; and where the program takes `n` steps, `n`
calls of `step` on a processor started at the base address answer with the same instructions
and end with the same accumulator, RAM and halt flag, the counter at the next instruction
and the code intact.  The program takes a step unless it has stopped or run past its end. -/
theorem calls_of_assembled (program : List Instruction) (base : UInt16) (before : Ram)
    (hp : WellFormed base.toNat before.size program) :
    ∃ loaded, before.writeBlock base.toNat ((Assembler.start base).emitAll program).image
        = .ok loaded ∧
      ∀ n trace s, run? base.toNat program n (State.start loaded) = some (trace, s) →
        (∃ last, Core.calls n ⟨Cpu.boot base.toNat, loaded⟩
            = (trace.map fun i => .ok (.executed i), last) ∧
          last.cpu.acc = s.acc ∧ last.ram = s.ram ∧ last.cpu.halted = s.stopped ∧
          last.cpu.pc = UInt16.ofNat (base.toNat + offset program s.index) ∧
          ∀ k < (Instruction.encodeAll program).length,
            last.ram.cells[base.toNat + k]? = (Instruction.encodeAll program)[k]?) ∧
        trace.length = n ∧
        (step? base.toNat program s = none ↔ s.stopped = true ∨ program.length ≤ s.index) := by
  have himage : ((Assembler.start base).emitAll program).image
      = Instruction.encodeAll program := by
    rw [Assembler.image_emitAll]
    rfl
  obtain ⟨loaded, hload⟩ := Ram.exists_writeBlock hp.fits
  refine ⟨loaded, himage ▸ hload, ?_⟩
  intro n trace s hrun
  obtain ⟨hlength, hsize⟩ := length_and_size_of_run? hrun
  obtain ⟨last, hcalls, hlast⟩ := (matches_start hload).run hp hrun
  refine ⟨⟨last, hcalls, hlast.acc, hlast.ram, hlast.halted, hlast.pc, ?_⟩, hlength, ?_⟩
  · intro k hk
    rw [hlast.ram, hlast.code k hk]
  · exact step?_eq_none_iff hp (hsize.trans (Ram.size_writeBlock hload))

/-- A program that counts down from two into a cell of RAM: a loop, a store and a halt. -/
def countdown : List Instruction :=
  [.loadImmediate 2, .subImmediate 1, .store 30, .jumpIfZero 17, .jump 6, .halt]

theorem wellFormed_countdown : WellFormed 4 32 countdown where
  known := by simp [countdown]
  reachable := by decide
  fits := by decide
  jumps := by
    intro target h
    simp only [countdown, List.mem_cons, reduceCtorEq, Instruction.jump.injEq,
      Instruction.jumpIfZero.injEq, List.not_mem_nil, or_false, false_or] at h
    obtain rfl | rfl := h
    · exact ⟨1, by decide, by decide⟩
    · exact ⟨5, by decide, by decide⟩
  loads := by simp [countdown]
  stores := by
    intro address h
    simp only [countdown, List.mem_cons, reduceCtorEq, Instruction.store.injEq,
      List.not_mem_nil, or_false, false_or] at h
    subst h
    decide

theorem countdown_halts : WellFormed 4 32 countdown ∧
    ∃ loaded last, (⟨Array.replicate 32 7, by decide⟩ : Ram).writeBlock 4
        ((Assembler.start 4).emitAll countdown).image = .ok loaded ∧
      Core.calls 9 ⟨Cpu.boot 4, loaded⟩
        = ([.loadImmediate 2, .subImmediate 1, .store 30, .jumpIfZero 17, .jump 6,
            .subImmediate 1, .store 30, .jumpIfZero 17, .halt].map fun i => .ok (.executed i),
          last) ∧
      last.cpu.halted = true ∧ last.ram.cells[30]? = some 0 := by
  have hp := wellFormed_countdown
  obtain ⟨loaded, hload, hsteps⟩ :=
    calls_of_assembled countdown 4 ⟨Array.replicate 32 7, by decide⟩ hp
  have hrun : ∃ s, run? 4 countdown 9 (State.start loaded)
      = some ([.loadImmediate 2, .subImmediate 1, .store 30, .jumpIfZero 17, .jump 6,
            .subImmediate 1, .store 30, .jumpIfZero 17, .halt], s) ∧ s.stopped = true
        ∧ s.ram.cells[30]? = some 0 := by
    cases hload
    exact ⟨_, rfl, rfl, rfl⟩
  obtain ⟨s, hrun, hstopped, hcell⟩ := hrun
  obtain ⟨⟨last, hcalls, -, hram, hhalted, -, -⟩, -, -⟩ := hsteps 9 _ s hrun
  exact ⟨hp, loaded, last, hload, hcalls, hhalted.trans hstopped, hram ▸ hcell⟩

end VirtualPC.Program
