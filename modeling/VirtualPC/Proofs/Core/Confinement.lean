/-
VirtualPC/Proofs/Core/Confinement.lean

A guest has 16-bit addresses: it neither sees nor touches RAM from `guestSpace` on, and how
much RAM there is beyond what it uses makes no difference to it.  Two cores that have come
from RAMs `r₁` and `r₂` are compared below a bound, the end of the first RAM or of the guest
space, whichever comes first:

    Alike bound r₁ r₂ c₁ c₂

says that their registers are the same, that their RAMs agree below the bound, and that from
the bound on each RAM still is what it was.  A step keeps two cores alike and answers the
same on both, unless it runs into the end of the first RAM (`Alike.step`); so does a run
(`Alike.run`).  Running into the end of RAM takes a RAM that ends inside the guest space
(`size_lt_of_step_memory`).

Main result: `run_confined`.
-/
import VirtualPC.Proofs.Core.Run

namespace VirtualPC.Core

open Instruction

variable {core after last c₁ c₂ : Core} {i : Instruction} {cause : Fault} {r₁ r₂ ram : Ram}
  {bound n budget : Nat}

/-! ### Where a run faults -/

/-- A run that ends with a fault ends with the failing step of the core that the executed
ones have left. -/
theorem step_of_run_fault (h : run budget core = (.fault n cause, last)) :
    step (calls n core).2 = .error cause last := by
  induction budget generalizing core n with
  | zero =>
    rw [run_zero] at h
    rcases hhalt : core.cpu.halted with _ | _ <;> simp [hhalt] at h
  | succ budget ih =>
    rcases hhalt : core.cpu.halted with _ | _
    · rcases hstep : step core with ⟨outcome, next⟩ | ⟨cause', next⟩
      · rw [run_succ_of_ok _ hhalt hstep] at h
        rcases hrun : run budget next with ⟨exit, final⟩
        rw [hrun] at h
        cases exit with
        | completed k => cases h
        | halted k => cases h
        | fault k cause' =>
          -- the first step is one of the executed ones
          cases h
          rw [Nat.add_comm, calls, call_of_ok hstep]
          exact ih hrun
      · rw [run_succ_of_error _ hhalt hstep] at h
        cases h
        exact hstep
    · rw [run_of_halted _ hhalt] at h
      cases h

/-- A guest address that is not in RAM shows that RAM ends inside the guest space. -/
theorem size_lt_of_le_toNat {address : UInt16} (h : ram.size ≤ address.toNat) :
    ram.size < guestSpace := by
  have := address.toNat_lt
  unfold guestSpace
  omega

/-- Only a RAM that ends inside the guest space can be run out of. -/
theorem size_lt_of_execute_memory {pc pc' : UInt16} {failure : MemoryError}
    (h : execute pc i core = .error (.memory pc' failure) after) : core.ram.size < guestSpace := by
  obtain ⟨-, ⟨byte, -, hcause⟩ | ⟨address, -, hsize, -⟩⟩ := execute_eq_error_iff.1 h
  · cases hcause
  · exact size_lt_of_le_toNat hsize

theorem size_lt_of_step_memory {pc : UInt16} {failure : MemoryError}
    (h : step core = .error (.memory pc failure) after) : core.ram.size < guestSpace := by
  obtain ⟨-, hstep⟩ | ⟨-, ⟨i, -, hstep⟩ | ⟨bytes, cause, -, -, hsize, -, -⟩⟩ := step_cases core
  · rw [hstep] at h
    cases h
  · rw [hstep] at h
    show (core.advance i.width).ram.size < guestSpace
    exact size_lt_of_execute_memory h
  · exact size_lt_of_le_toNat hsize

/-! ### Two cores side by side -/

/-- Two cores that have come from the RAMs `r₁` and `r₂` are the same to the guest, and have
left alone what is out of its reach. -/
structure Alike (bound : Nat) (r₁ r₂ : Ram) (c₁ c₂ : Core) : Prop where
  cpu : c₂.cpu = c₁.cpu
  cells : ∀ k < bound, c₁.ram.cells[k]? = c₂.ram.cells[k]?
  /-- The first RAM ends at the bound, or the guest space does. -/
  reach : min c₁.ram.size guestSpace = bound
  room : bound ≤ c₂.ram.size
  kept₁ : ∀ k, bound ≤ k → c₁.ram.cells[k]? = r₁.cells[k]?
  kept₂ : ∀ k, bound ≤ k → c₂.ram.cells[k]? = r₂.cells[k]?

namespace Alike

/-- A guest address that is in the first RAM lies below the bound. -/
theorem toNat_lt (h : Alike bound r₁ r₂ c₁ c₂) {address : UInt16}
    (hlt : address.toNat < c₁.ram.size) : address.toNat < bound := by
  have := address.toNat_lt
  have := h.reach
  unfold guestSpace at this
  omega

/-- What the guest reads in the first RAM it reads in the second. -/
theorem getElem? (h : Alike bound r₁ r₂ c₁ c₂) {address : UInt16} {byte : UInt8}
    (hbyte : c₁.ram.cells[address.toNat]? = some byte) :
    c₂.ram.cells[address.toNat]? = some byte := by
  rw [← h.cells _ (h.toNat_lt (Array.getElem?_eq_some_iff.1 hbyte).1), hbyte]

theorem holds (h : Alike bound r₁ r₂ c₁ c₂) {bytes : List UInt8}
    (hbytes : Holds c₁.ram c₁.cpu.pc bytes) : Holds c₂.ram c₂.cpu.pc bytes := by
  intro k byte hbyte
  rw [h.cpu]
  exact h.getElem? (hbytes k byte hbyte)

/-- The same registers on each side. -/
theorem setCpu (h : Alike bound r₁ r₂ c₁ c₂) (cpu : Cpu) :
    Alike bound r₁ r₂ { c₁ with cpu := cpu } { c₂ with cpu := cpu } :=
  { h with cpu := rfl }

theorem advance (h : Alike bound r₁ r₂ c₁ c₂) (n : Nat) :
    Alike bound r₁ r₂ (c₁.advance n) (c₂.advance n) := by
  have hnext := h.setCpu { c₁.cpu with pc := c₁.cpu.pc + UInt16.ofNat n }
  rw [Core.advance, Core.advance, h.cpu]
  exact hnext

/-- The same byte stored at the same guest address on each side. -/
theorem store (h : Alike bound r₁ r₂ c₁ c₂) {address : UInt16} {byte : UInt8} {ram₁ : Ram}
    (hwrite : c₁.ram.write address.toNat byte = .ok ram₁) :
    ∃ ram₂, c₂.ram.write address.toNat byte = .ok ram₂ ∧
      Alike bound r₁ r₂ { c₁ with ram := ram₁ } { c₂ with ram := ram₂ } := by
  have hlt := h.toNat_lt (Ram.lt_size_of_write hwrite)
  obtain ⟨ram₂, hwrite₂⟩ := Ram.exists_write byte (Nat.lt_of_lt_of_le hlt h.room)
  refine ⟨ram₂, hwrite₂, { h with cells := ?_, reach := ?_, room := ?_, kept₁ := ?_, kept₂ := ?_ }⟩
  · intro k hk
    rw [Ram.getElem?_write hwrite, Ram.getElem?_write hwrite₂, h.cells k hk]
  · rw [← h.reach, ← Ram.size_write hwrite]
  · exact Nat.le_trans h.room (Nat.le_of_eq (Ram.size_write hwrite₂).symm)
  -- the address is below the bound, so no cell from the bound on is written
  · intro k hk
    rw [Ram.getElem?_write hwrite, if_neg (by omega), h.kept₁ k hk]
  · intro k hk
    rw [Ram.getElem?_write hwrite₂, if_neg (by omega), h.kept₂ k hk]

/-! ### Steps -/

/-- What the first core fetches, the second does. -/
theorem fetchInstruction (h : Alike bound r₁ r₂ c₁ c₂)
    (hfetch : Core.fetchInstruction c₁ = .ok i after) :
    Core.fetchInstruction c₂ = .ok i (c₂.advance i.width) := by
  obtain ⟨hcanonical, hholds, -⟩ := fetchInstruction_eq_ok_iff.1 hfetch
  exact fetchInstruction_eq_ok_iff.2 ⟨hcanonical, h.holds hholds, rfl⟩

/-- Carrying out an instruction keeps two cores alike, unless it runs out of the first RAM. -/
theorem execute (h : Alike bound r₁ r₂ c₁ c₂) (pc : UInt16) (i : Instruction) :
    (∃ a₁ a₂, Core.execute pc i c₁ = .ok (.executed i) a₁ ∧
      Core.execute pc i c₂ = .ok (.executed i) a₂ ∧ Alike bound r₁ r₂ a₁ a₂) ∨
    (∃ cause, Core.execute pc i c₁ = .error cause c₁ ∧ Core.execute pc i c₂ = .error cause c₂) ∨
    ∃ failure, Core.execute pc i c₁ = .error (.memory pc failure) c₁ := by
  -- the registers are the same, so what works on them alone is the same on both sides
  obtain ⟨cpu, ram⟩ := c₂
  obtain rfl : cpu = c₁.cpu := h.cpu
  cases i with
  | store address =>
    rcases hwrite : c₁.ram.write address.toNat c₁.cpu.acc with failure | ram₁
    · exact .inr (.inr ⟨failure, by simp only [Core.execute, hwrite]⟩)
    · obtain ⟨ram₂, hwrite₂, hnext⟩ := h.store hwrite
      refine .inl ⟨_, _, ?_, ?_, hnext⟩
      · simp only [Core.execute, hwrite]
      · simp only [Core.execute, hwrite₂]
  | load address =>
    rcases hread : c₁.ram.read address.toNat with failure | byte
    · exact .inr (.inr ⟨failure, by simp only [Core.execute, hread]⟩)
    · have hread₂ := Ram.read_eq_ok_iff.2 (h.getElem? (Ram.read_eq_ok_iff.1 hread))
      refine .inl ⟨_, _, ?_, ?_, h.setCpu { c₁.cpu with acc := byte }⟩
      · simp only [Core.execute, hread]
      · simp only [Core.execute, hread₂]
  | jumpIfZero target =>
    by_cases hacc : c₁.cpu.acc = 0
    · exact .inl ⟨_, _, if_pos hacc, if_pos hacc, h.setCpu { c₁.cpu with pc := target }⟩
    · exact .inl ⟨_, _, if_neg hacc, if_neg hacc, h⟩
  | unknown byte => exact .inr (.inl ⟨_, rfl, rfl⟩)
  | nop | loadImmediate | addImmediate | subImmediate | jump | halt =>
    exact .inl ⟨_, _, rfl, rfl, h.setCpu _⟩

/-- **A step keeps two cores alike** and answers the same on both, unless it runs out of the
first RAM. -/
theorem step (h : Alike bound r₁ r₂ c₁ c₂) :
    (∃ outcome a₁ a₂, Core.step c₁ = .ok outcome a₁ ∧ Core.step c₂ = .ok outcome a₂ ∧
      Alike bound r₁ r₂ a₁ a₂) ∨
    (∃ cause a₁ a₂, Core.step c₁ = .error cause a₁ ∧ Core.step c₂ = .error cause a₂ ∧
      Alike bound r₁ r₂ a₁ a₂) ∨
    ∃ pc failure a₁, Core.step c₁ = .error (.memory pc failure) a₁ := by
  rcases hhalt : c₁.cpu.halted with _ | _
  · have hhalt₂ : c₂.cpu.halted = false := by rw [h.cpu, hhalt]
    rcases hfetch : Core.fetchInstruction c₁ with ⟨i, mid⟩ | ⟨failure, mid⟩
    · obtain ⟨-, rfl⟩ := holds_of_fetchInstruction hfetch
      rw [step_of_fetch hhalt hfetch, step_of_fetch hhalt₂ (h.fetchInstruction hfetch), h.cpu]
      obtain ⟨a₁, a₂, h₁, h₂, hnext⟩ | ⟨cause, h₁, h₂⟩ | ⟨failure, h₁⟩ :=
        (h.advance i.width).execute c₁.cpu.pc i
      · exact .inl ⟨_, a₁, a₂, h₁, h₂, hnext⟩
      · exact .inr (.inl ⟨cause, _, _, h₁, h₂, h.advance i.width⟩)
      · exact .inr (.inr ⟨_, failure, _, h₁⟩)
    · exact .inr (.inr ⟨_, failure, mid, step_of_fetch_error hhalt hfetch⟩)
  · have hhalt₂ : c₂.cpu.halted = true := by rw [h.cpu, hhalt]
    exact .inl ⟨.idle, c₁, c₂, step_of_halted hhalt, step_of_halted hhalt₂, h⟩

/-! ### Runs -/

/-- **A run keeps two cores alike** and ends the same on both, unless it runs out of the first
RAM. -/
theorem run (h : Alike bound r₁ r₂ c₁ c₂) (budget : Nat)
    (hfault : ∀ n pc failure, (Core.run budget c₁).1 ≠ .fault n (.memory pc failure)) :
    (Core.run budget c₂).1 = (Core.run budget c₁).1 ∧
      Alike bound r₁ r₂ (Core.run budget c₁).2 (Core.run budget c₂).2 := by
  induction budget generalizing c₁ c₂ with
  | zero =>
    rw [run_zero, run_zero, h.cpu]
    exact ⟨rfl, h⟩
  | succ budget ih =>
    rcases hhalt : c₁.cpu.halted with _ | _
    · have hhalt₂ : c₂.cpu.halted = false := by rw [h.cpu, hhalt]
      obtain ⟨outcome, a₁, a₂, h₁, h₂, hnext⟩ | ⟨cause, a₁, a₂, h₁, h₂, hnext⟩ |
        ⟨pc, failure, a₁, h₁⟩ := h.step
      · rw [run_succ_of_ok _ hhalt h₁] at hfault ⊢
        rw [run_succ_of_ok _ hhalt₂ h₂]
        obtain ⟨hexit, hlast⟩ := ih hnext fun n pc failure hrest =>
          hfault (1 + n) pc failure (congrArg (RunExit.after 1) hrest)
        exact ⟨congrArg (RunExit.after 1) hexit, hlast⟩
      · rw [run_succ_of_error _ hhalt h₁, run_succ_of_error _ hhalt₂ h₂]
        exact ⟨rfl, hnext⟩
      · rw [run_succ_of_error _ hhalt h₁] at hfault
        exact (hfault 0 pc failure rfl).elim
    · have hhalt₂ : c₂.cpu.halted = true := by rw [h.cpu, hhalt]
      rw [run_of_halted _ hhalt, run_of_halted _ hhalt₂]
      exact ⟨rfl, h⟩

end Alike

/-- A run that runs out of RAM does so in a RAM that ends inside the guest space. -/
theorem size_lt_of_run_memory {pc : UInt16} {failure : MemoryError}
    (h : (run budget core).1 = .fault n (.memory pc failure)) : core.ram.size < guestSpace := by
  rcases hrun : run budget core with ⟨exit, last⟩
  rw [hrun] at h
  obtain rfl : exit = _ := h
  rw [← size_calls n core]
  exact size_lt_of_step_memory (step_of_run_fault hrun)

/-- **A guest is confined to the guest space**, and the size of RAM beyond what it uses makes
no difference to it.  Take two RAMs that agree up to the end of the first or of the guest
space, whichever comes first.  A run on the first that does not run out of it is, with the
same exit and registers, a run on the second; both change the same cells in the same way, and
none from the bound on.  A RAM that fills the guest space cannot be run out of. -/
theorem run_confined (r₁ r₂ : Ram) (cpu : Cpu) (budget : Nat)
    (hroom : min r₁.size guestSpace ≤ r₂.size)
    (hcells : ∀ k < min r₁.size guestSpace, r₁.cells[k]? = r₂.cells[k]?) :
    let bound := min r₁.size guestSpace
    let first := run budget ⟨cpu, r₁⟩
    let second := run budget ⟨cpu, r₂⟩
    ((∀ n pc failure, first.1 ≠ .fault n (.memory pc failure)) →
      second.1 = first.1 ∧ second.2.cpu = first.2.cpu ∧
      first.2.ram.size = r₁.size ∧ second.2.ram.size = r₂.size ∧
      (∀ k < bound, first.2.ram.cells[k]? = second.2.ram.cells[k]?) ∧
      ∀ k, bound ≤ k → first.2.ram.cells[k]? = r₁.cells[k]? ∧
        second.2.ram.cells[k]? = r₂.cells[k]?) ∧
    (guestSpace ≤ r₁.size → ∀ n pc failure, first.1 ≠ .fault n (.memory pc failure)) := by
  intro bound first second
  have hstart : Alike bound r₁ r₂ ⟨cpu, r₁⟩ ⟨cpu, r₂⟩ := {
    cpu := rfl
    cells := hcells
    reach := rfl
    room := hroom
    kept₁ := fun _ _ => rfl
    kept₂ := fun _ _ => rfl }
  refine ⟨?_, ?_⟩
  · intro hfault
    obtain ⟨hexit, hlast⟩ := hstart.run budget hfault
    exact ⟨hexit, hlast.cpu, size_run budget _, size_run budget _, hlast.cells,
      fun k hk => ⟨hlast.kept₁ k hk, hlast.kept₂ k hk⟩⟩
  · intro hsize n pc failure hfault
    have hlt : r₁.size < guestSpace := size_lt_of_run_memory hfault
    omega

/-- A program that fills its RAM and writes a `halt` over its own last byte. -/
def tight : Ram := ⟨#[0x01, 0xFF, 0x02, 0x00, 0x05, 0xEE], by decide⟩

/-- The same bytes with others behind them. -/
def roomy : Ram := ⟨#[0x01, 0xFF, 0x02, 0x00, 0x05, 0xEE, 0xAA, 0xBB], by decide⟩

theorem roomy_runs_as_tight : min tight.size guestSpace ≤ roomy.size ∧
    (∀ k < min tight.size guestSpace, tight.cells[k]? = roomy.cells[k]?) ∧
    (run 9 ⟨Cpu.boot 0, tight⟩).1 = .halted 3 ∧ (run 9 ⟨Cpu.boot 0, roomy⟩).1 = .halted 3 ∧
    (run 9 ⟨Cpu.boot 0, roomy⟩).2.ram.cells[5]? = some 0xFF ∧
    (run 9 ⟨Cpu.boot 0, roomy⟩).2.ram.cells[6]? = some 0xAA := by
  have hroom : min tight.size guestSpace ≤ roomy.size := by decide
  have hcells : ∀ k < min tight.size guestSpace, tight.cells[k]? = roomy.cells[k]? := by decide
  have hexit : (run 9 ⟨Cpu.boot 0, tight⟩).1 = .halted 3 := rfl
  have hcell : (run 9 ⟨Cpu.boot 0, tight⟩).2.ram.cells[5]? = some 0xFF := rfl
  obtain ⟨hsame, -⟩ := run_confined tight roomy (Cpu.boot 0) 9 hroom hcells
  obtain ⟨hsecond, -, -, -, hbelow, habove⟩ := hsame (by rw [hexit]; simp)
  refine ⟨hroom, hcells, hexit, hsecond.trans hexit, ?_, ?_⟩
  · rw [← hbelow 5 (by decide), hcell]
  · rw [(habove 6 (by decide)).2]
    rfl

end VirtualPC.Core
