/-
VirtualPC/Proofs/Core/Dependence.lean

A run depends on the bytes it reads and on nothing else in RAM.  Two cores are compared on a
set of addresses:

    Agree known c₁ c₂

says that their registers are the same, that their RAMs have the same size, and that these
have the same bytes at the addresses in `known`.  The set grows as a run goes on: a cell that
has been stored to holds the same byte on both sides, whatever was there before, so from then
on the run may read it (`ReadsWithin`).  This is how code that writes itself is covered.

A step whose reads are within the set ends the same on both cores, and they then agree on
what it stored to as well (`Agree.step`); so does a run (`Agree.run`).

Main result: `run_eq_of_agree_on_reads`.
-/
import VirtualPC.Proofs.Core.Record

namespace VirtualPC.Core

open Instruction

variable {after c₁ c₂ : Core} {i : Instruction} {known : Set Nat}
  {first second rest : List Access} {bytes : List UInt8} {address budget : Nat}

/-! ### Reads within a set of addresses -/

/-- Each address that is read is in `known` or has been stored to before. -/
def ReadsWithin (known : Set Nat) (accesses : List Access) : Prop :=
  ∀ before address after, accesses = before ++ .read address :: after →
    address ∈ known ∪ stored before

@[simp] theorem readsWithin_nil : ReadsWithin known [] := by
  intro before address after h
  simp at h

/-- What comes after some accesses may read what these have stored to. -/
theorem readsWithin_append : ReadsWithin known (first ++ second) ↔
    ReadsWithin known first ∧ ReadsWithin (known ∪ stored first) second := by
  constructor
  · intro h
    refine ⟨?_, ?_⟩
    · rintro before address after rfl
      exact h before address (after ++ second) (by simp)
    · rintro before address after rfl
      rw [Set.union_assoc, ← stored_append]
      exact h (first ++ before) address after (by simp)
  · rintro ⟨hfirst, hsecond⟩ before address after heq
    obtain ⟨rest, rfl, hrest⟩ | ⟨rest, rfl, hrest⟩ := List.append_eq_append_iff.1 heq
    · rw [stored_append, ← Set.union_assoc]
      exact hsecond rest address after hrest
    · cases rest with
      | nil =>
        have hread := hsecond [] address after (by simpa using hrest.symm)
        simpa [stored_append] using hread
      | cons access rest =>
        obtain ⟨rfl, -⟩ := List.cons.inj hrest
        exact hfirst before address rest rfl

@[simp] theorem readsWithin_read_cons : ReadsWithin known (.read address :: rest) ↔
    address ∈ known ∧ ReadsWithin known rest := by
  constructor
  · intro h
    refine ⟨by simpa using h [] address rest rfl, ?_⟩
    rintro before read after rfl
    simpa using h (.read address :: before) read after rfl
  · rintro ⟨hknown, hrest⟩ before read after heq
    cases before with
    | nil =>
      cases heq
      exact .inl hknown
    | cons access before =>
      obtain ⟨rfl, htail⟩ := List.cons.inj heq
      simpa using hrest before read after htail

/-- What has been stored to may be read. -/
@[simp] theorem readsWithin_store_cons : ReadsWithin known (.store address :: rest) ↔
    ReadsWithin (insert address known) rest := by
  constructor
  · rintro h before read after rfl
    simpa [or_left_comm, or_assoc] using h (.store address :: before) read after rfl
  · intro hrest before read after heq
    cases before with
    | nil => cases heq
    | cons access before =>
      obtain ⟨rfl, htail⟩ := List.cons.inj heq
      simpa [or_left_comm, or_assoc] using hrest before read after htail

/-- Reads within the set from a guest address on are at addresses in the set. -/
theorem mem_of_readsFrom {pc : UInt16} {count k : Nat} (h : ReadsWithin known (readsFrom pc count))
    (hk : k < count) : (pc + UInt16.ofNat k).toNat ∈ known := by
  induction count generalizing pc k with
  | zero => exact (Nat.not_lt_zero k hk).elim
  | succ count ih =>
    rw [readsFrom, readsWithin_read_cons] at h
    obtain ⟨hread, hrest⟩ := h
    cases k with
    | zero => simpa using hread
    | succ k =>
      rw [ofNat_succ_add]
      exact ih hrest (Nat.lt_of_succ_lt_succ hk)

/-! ### Two cores that agree -/

/-- Two cores with the same registers, with as much RAM, and with the same bytes at some
addresses. -/
structure Agree (known : Set Nat) (c₁ c₂ : Core) : Prop where
  cpu : c₂.cpu = c₁.cpu
  size : c₂.ram.size = c₁.ram.size
  cells : ∀ k ∈ known, c₁.ram.cells[k]? = c₂.ram.cells[k]?

/-- Two results of a step with the same answer, which leave cores that agree. -/
inductive SameEnd (known : Set Nat) : (r₁ r₂ : EStateM.Result Fault Core Outcome) → Prop
  | ok {outcome : Outcome} {a₁ a₂ : Core} :
      Agree known a₁ a₂ → SameEnd known (.ok outcome a₁) (.ok outcome a₂)
  | error {cause : Fault} {a₁ a₂ : Core} :
      Agree known a₁ a₂ → SameEnd known (.error cause a₁) (.error cause a₂)

namespace Agree

/-- Where nothing is stored to, the set stays as it is. -/
theorem keep (h : Agree known c₁ c₂) : Agree (known ∪ stored []) c₁ c₂ := by
  rw [stored_nil, Set.union_empty]
  exact h

/-- A read gives the same on both sides, also where there is nothing to read. -/
theorem read_eq (h : Agree known c₁ c₂) (hknown : address < c₁.ram.size → address ∈ known) :
    c₂.ram.read address = c₁.ram.read address := by
  rcases Nat.lt_or_ge address c₁.ram.size with hlt | hge
  · obtain ⟨byte, hbyte⟩ := Ram.getElem?_isSome hlt
    have hbyte₂ : c₂.ram.cells[address]? = some byte := by
      rw [← h.cells address (hknown hlt), hbyte]
    rw [Ram.read_eq_ok_iff.2 hbyte, Ram.read_eq_ok_iff.2 hbyte₂]
  · have hge₂ : c₂.ram.size ≤ address := by
      rw [h.size]
      exact hge
    rw [Ram.read_of_size_le hge, Ram.read_of_size_le hge₂, h.size]

/-- The same registers on each side. -/
theorem setCpu (h : Agree known c₁ c₂) (cpu : Cpu) :
    Agree known { c₁ with cpu := cpu } { c₂ with cpu := cpu } :=
  { h with cpu := rfl }

theorem advance (h : Agree known c₁ c₂) (n : Nat) :
    Agree known (c₁.advance n) (c₂.advance n) := by
  have hnext := h.setCpu { c₁.cpu with pc := c₁.cpu.pc + UInt16.ofNat n }
  rw [Core.advance, Core.advance, h.cpu]
  exact hnext

/-- The same byte stored at the same address on each side; afterwards the cores agree there. -/
theorem store (h : Agree known c₁ c₂) {byte : UInt8} {ram₁ ram₂ : Ram}
    (hwrite₁ : c₁.ram.write address byte = .ok ram₁)
    (hwrite₂ : c₂.ram.write address byte = .ok ram₂) :
    Agree (known ∪ stored [.store address]) { c₁ with ram := ram₁ } { c₂ with ram := ram₂ } where
  cpu := h.cpu
  size := by
    show ram₂.size = ram₁.size
    rw [Ram.size_write hwrite₁, Ram.size_write hwrite₂, h.size]
  cells k hk := by
    show ram₁.cells[k]? = ram₂.cells[k]?
    rw [Ram.getElem?_write hwrite₁, Ram.getElem?_write hwrite₂]
    by_cases heq : k = address
    · rw [if_pos heq, if_pos heq]
    · have hmem : k ∈ known := hk.resolve_right (by simpa using heq)
      rw [if_neg heq, if_neg heq, h.cells k hmem]

/-! ### Steps -/

/-- Bytes that the first core holds at addresses in the set, the second holds too. -/
theorem holds (h : Agree known c₁ c₂) (hholds : Holds c₁.ram c₁.cpu.pc bytes)
    (hreads : ReadsWithin known (readsFrom c₁.cpu.pc bytes.length)) :
    Holds c₂.ram c₂.cpu.pc bytes := by
  intro k byte hbyte
  have hk : k < bytes.length := (List.getElem?_eq_some_iff.1 hbyte).1
  rw [h.cpu, ← h.cells _ (mem_of_readsFrom hreads hk)]
  exact hholds k byte hbyte

/-- An instruction fetched from addresses in the set is fetched on the other side. -/
theorem fetchInstruction (h : Agree known c₁ c₂) (hfetch : Core.fetchInstruction c₁ = .ok i after)
    (hreads : ReadsWithin known (readsFrom c₁.cpu.pc i.width)) :
    Core.fetchInstruction c₂ = .ok i (c₂.advance i.width) := by
  obtain ⟨hcanonical, hholds, -⟩ := fetchInstruction_eq_ok_iff.1 hfetch
  rw [← length_encode] at hreads
  exact fetchInstruction_eq_ok_iff.2 ⟨hcanonical, h.holds hholds hreads, rfl⟩

/-- Carrying out an instruction ends the same on both sides, if what it loads is from an address
in the set. -/
theorem execute (h : Agree known c₁ c₂) (pc : UInt16) (i : Instruction)
    (hreads : ReadsWithin known (executeAccesses i c₁.ram)) :
    SameEnd (known ∪ stored (executeAccesses i c₁.ram)) (Core.execute pc i c₁)
      (Core.execute pc i c₂) := by
  -- the registers are the same, so what works on them alone is the same on both sides
  obtain ⟨cpu, ram⟩ := c₂
  obtain rfl : cpu = c₁.cpu := h.cpu
  cases i with
  | store address =>
    rcases Nat.lt_or_ge address.toNat c₁.ram.size with hlt | hge
    · have hlt₂ : address.toNat < ram.size := Nat.lt_of_lt_of_eq hlt h.size.symm
      obtain ⟨ram₁, hwrite₁⟩ := Ram.exists_write c₁.cpu.acc hlt
      obtain ⟨ram₂, hwrite₂⟩ := Ram.exists_write c₁.cpu.acc hlt₂
      simp only [executeAccesses, if_pos hlt, Core.execute, hwrite₁, hwrite₂]
      exact .ok (h.store hwrite₁ hwrite₂)
    · have hge₂ : ram.size ≤ address.toNat := Nat.le_trans (Nat.le_of_eq h.size) hge
      simp only [executeAccesses, if_neg (Nat.not_lt.2 hge), Core.execute,
        Ram.write_of_size_le c₁.cpu.acc hge, Ram.write_of_size_le c₁.cpu.acc hge₂]
      rw [show ram.size = c₁.ram.size from h.size]
      exact .error h.keep
  | load address =>
    have hknown : address.toNat < c₁.ram.size → address.toNat ∈ known := by
      intro hlt
      simp only [executeAccesses, if_pos hlt] at hreads
      exact (readsWithin_read_cons.1 hreads).1
    have hstored : stored (executeAccesses (.load address) c₁.ram) = stored [] := by
      simp only [executeAccesses]
      split <;> simp
    have hread : ram.read address.toNat = c₁.ram.read address.toNat := h.read_eq hknown
    rw [hstored]
    rcases hbyte : c₁.ram.read address.toNat with failure | byte
    · simp only [Core.execute, hread, hbyte]
      exact .error h.keep
    · simp only [Core.execute, hread, hbyte]
      exact .ok (h.setCpu { c₁.cpu with acc := byte }).keep
  | jumpIfZero target =>
    by_cases hacc : c₁.cpu.acc = 0
    · have hjump : ∀ ram, Core.execute pc (.jumpIfZero target) ⟨c₁.cpu, ram⟩
          = .ok (.executed (.jumpIfZero target)) ⟨{ c₁.cpu with pc := target }, ram⟩ :=
        fun _ => if_pos hacc
      rw [hjump, hjump ram]
      exact .ok (h.setCpu _).keep
    · have hstay : ∀ ram, Core.execute pc (.jumpIfZero target) ⟨c₁.cpu, ram⟩
          = .ok (.executed (.jumpIfZero target)) ⟨c₁.cpu, ram⟩ := fun _ => if_neg hacc
      rw [hstay, hstay ram]
      exact .ok h.keep
  | unknown byte => exact .error h.keep
  | nop | loadImmediate | addImmediate | subImmediate | jump | halt =>
    exact .ok (h.setCpu _).keep

/-- **A step whose reads are within the set ends the same on both sides**, with the same
accesses, and the cores then agree on what it stored to. -/
theorem step (h : Agree known c₁ c₂) (hreads : ReadsWithin known (stepAccesses c₁)) :
    stepAccesses c₂ = stepAccesses c₁ ∧
      SameEnd (known ∪ stored (stepAccesses c₁)) (Core.step c₁) (Core.step c₂) := by
  rcases hhalt : c₁.cpu.halted with _ | _
  · have hhalt₂ : c₂.cpu.halted = false := by rw [h.cpu, hhalt]
    rcases hfetch : Core.fetchInstruction c₁ with ⟨i, mid⟩ | ⟨failure, mid⟩
    · rw [stepAccesses_of_fetch hhalt hfetch, readsWithin_append, stored_readsFrom,
        Set.union_empty] at hreads
      obtain ⟨hreads, hload⟩ := hreads
      have hfetch₂ := h.fetchInstruction hfetch hreads
      have haccesses : stepAccesses c₂ = stepAccesses c₁ := by
        rw [stepAccesses_of_fetch hhalt hfetch, stepAccesses_of_fetch hhalt₂ hfetch₂, h.cpu,
          executeAccesses_congr h.size]
      obtain ⟨-, rfl⟩ := holds_of_fetchInstruction hfetch
      refine ⟨haccesses, ?_⟩
      rw [step_of_fetch hhalt hfetch, step_of_fetch hhalt₂ hfetch₂, h.cpu,
        stepAccesses_of_fetch hhalt hfetch, stored_append, stored_readsFrom, Set.empty_union]
      exact (h.advance i.width).execute c₁.cpu.pc i hload
    · obtain ⟨bytes, hbytes, hholds, rfl, hsize, rfl⟩ := fetchInstruction_eq_error_iff.1 hfetch
      have haccesses := stepAccesses_of_incomplete hhalt hbytes hholds hsize
      rw [haccesses] at hreads ⊢
      have hnext := h.advance bytes.length
      -- there is as much RAM on the other side, so it ends before the instruction there as well
      have hholds₂ := h.holds hholds hreads
      have hsize₂ : c₂.ram.size ≤ (c₂.advance bytes.length).cpu.pc.toNat := by
        rw [hnext.cpu, h.size]
        exact hsize
      have hfetch₂ : Core.fetchInstruction c₂ = _ :=
        fetchInstruction_eq_error_iff.2 ⟨bytes, hbytes, hholds₂, rfl, hsize₂, rfl⟩
      rw [step_of_fetch_error hhalt hfetch, step_of_fetch_error hhalt₂ hfetch₂,
        stepAccesses_of_incomplete hhalt₂ hbytes hholds₂ hsize₂, hnext.cpu, h.cpu, h.size,
        stored_readsFrom, Set.union_empty]
      exact ⟨rfl, .error hnext⟩
  · have hhalt₂ : c₂.cpu.halted = true := by rw [h.cpu, hhalt]
    rw [stepAccesses_of_halted hhalt, stepAccesses_of_halted hhalt₂, step_of_halted hhalt,
      step_of_halted hhalt₂]
    exact ⟨rfl, .ok h.keep⟩

/-! ### Runs -/

/-- **A run whose reads are within the set ends the same on both sides**, with the same
instructions and accesses, and the cores then agree on what it stored to. -/
theorem run (h : Agree known c₁ c₂) (budget : Nat)
    (hreads : ReadsWithin known (accesses budget c₁)) :
    (Core.run budget c₂).1 = (Core.run budget c₁).1 ∧ trace budget c₂ = trace budget c₁ ∧
      accesses budget c₂ = accesses budget c₁ ∧
      Agree (known ∪ stored (accesses budget c₁)) (Core.run budget c₁).2
        (Core.run budget c₂).2 := by
  -- the set grows by what each step has stored to
  induction budget generalizing c₁ c₂ known with
  | zero =>
    rw [run_zero, run_zero, h.cpu]
    exact ⟨rfl, rfl, rfl, h.keep⟩
  | succ budget ih =>
    rcases hhalt : c₁.cpu.halted with _ | _
    · have hhalt₂ : c₂.cpu.halted = false := by rw [h.cpu, hhalt]
      obtain ⟨haccesses, hend⟩ := h.step (readsWithin_append.1 hreads).1
      generalize hstep₁ : Core.step c₁ = end₁ at hend
      generalize hstep₂ : Core.step c₂ = end₂ at hend
      cases hend with
      | @ok outcome a₁ a₂ hnext =>
        obtain ⟨i, rfl⟩ := executed_of_step_ok hhalt hstep₁
        rw [accesses_succ_of_ok _ hstep₁, readsWithin_append] at hreads
        obtain ⟨hexit, htrace, hrest, hlast⟩ := ih hnext hreads.2
        rw [run_succ_of_ok _ hhalt hstep₁, run_succ_of_ok _ hhalt₂ hstep₂,
          trace_succ_of_executed _ hstep₁, trace_succ_of_executed _ hstep₂,
          accesses_succ_of_ok _ hstep₁, accesses_succ_of_ok _ hstep₂, stored_append,
          ← Set.union_assoc, hexit, htrace, haccesses, hrest]
        exact ⟨rfl, rfl, rfl, hlast⟩
      | @error cause a₁ a₂ hlast =>
        rw [run_succ_of_error _ hhalt hstep₁, run_succ_of_error _ hhalt₂ hstep₂,
          trace_succ_of_error _ hstep₁, trace_succ_of_error _ hstep₂,
          accesses_succ_of_error _ hstep₁, accesses_succ_of_error _ hstep₂]
        exact ⟨rfl, rfl, haccesses, hlast⟩
    · have hhalt₂ : c₂.cpu.halted = true := by rw [h.cpu, hhalt]
      rw [run_of_halted _ hhalt, run_of_halted _ hhalt₂, trace_of_halted _ hhalt,
        trace_of_halted _ hhalt₂, accesses_of_halted _ hhalt, accesses_of_halted _ hhalt₂]
      exact ⟨rfl, rfl, rfl, h.keep⟩

end Agree

/-- **A run depends only on the bytes it reads.**  Take two RAMs of the same size that agree on a
set of addresses, and a run on the first that reads, up to its end or its fault, only in that
set or what it has stored before.  On the second RAM the same instructions are carried out with
the same accesses, and the run has the same exit and leaves the same registers.  The RAMs it
leaves agree on the set and on what was stored to; every other cell is what it was on its own
side. -/
theorem run_eq_of_agree_on_reads (known : Set Nat) (r₁ r₂ : Ram) (cpu : Cpu) (budget : Nat)
    (hsize : r₂.size = r₁.size) (hcells : ∀ k ∈ known, r₁.cells[k]? = r₂.cells[k]?)
    (hreads : ReadsWithin known (accesses budget ⟨cpu, r₁⟩)) :
    let first := run budget ⟨cpu, r₁⟩
    let second := run budget ⟨cpu, r₂⟩
    let written := stored (accesses budget ⟨cpu, r₁⟩)
    trace budget ⟨cpu, r₂⟩ = trace budget ⟨cpu, r₁⟩ ∧
    accesses budget ⟨cpu, r₂⟩ = accesses budget ⟨cpu, r₁⟩ ∧
    second.1 = first.1 ∧ second.2.cpu = first.2.cpu ∧
    (∀ k ∈ known ∪ written, first.2.ram.cells[k]? = second.2.ram.cells[k]?) ∧
    ∀ k ∉ written, first.2.ram.cells[k]? = r₁.cells[k]? ∧
      second.2.ram.cells[k]? = r₂.cells[k]? := by
  intro first second written
  have hstart : Agree known ⟨cpu, r₁⟩ ⟨cpu, r₂⟩ := { cpu := rfl, size := hsize, cells := hcells }
  obtain ⟨hexit, htrace, haccesses, hlast⟩ := hstart.run budget hreads
  refine ⟨htrace, haccesses, hexit, hlast.cpu, hlast.cells, ?_⟩
  intro k hk
  have hk₂ : k ∉ stored (accesses budget ⟨cpu, r₂⟩) := by
    rw [haccesses]
    exact hk
  exact ⟨getElem?_run hk, getElem?_run hk₂⟩

/-- A program that stores a `halt` behind itself and runs into it, with some byte there and
behind. -/
def selfWritten (byte : UInt8) : Ram :=
  ⟨#[0x01, 0xFF, 0x02, 0x00, 0x05, byte, byte], Nat.succ_pos 6⟩

theorem selfWritten_halts : (selfWritten 0x11).size = (selfWritten 0xEE).size ∧
    (∀ k < 5, (selfWritten 0xEE).cells[k]? = (selfWritten 0x11).cells[k]?) ∧
    (run 9 ⟨Cpu.boot 0, selfWritten 0xEE⟩).1 = .halted 3 ∧
    (run 9 ⟨Cpu.boot 0, selfWritten 0x11⟩).1 = .halted 3 ∧
    (run 9 ⟨Cpu.boot 0, selfWritten 0x11⟩).2.ram.cells[5]? = some 0xFF ∧
    (run 9 ⟨Cpu.boot 0, selfWritten 0x11⟩).2.ram.cells[6]? = some 0x11 := by
  have hcells : ∀ k < 5, (selfWritten 0xEE).cells[k]? = (selfWritten 0x11).cells[k]? := by decide
  have haccesses : accesses 9 ⟨Cpu.boot 0, selfWritten 0xEE⟩
      = [.read 0, .read 1, .read 2, .read 3, .read 4, .store 5, .read 5] := rfl
  have hreads : ReadsWithin {k | k < 5} (accesses 9 ⟨Cpu.boot 0, selfWritten 0xEE⟩) := by
    simp [haccesses]
  have hexit : (run 9 ⟨Cpu.boot 0, selfWritten 0xEE⟩).1 = .halted 3 := rfl
  have hcell : (run 9 ⟨Cpu.boot 0, selfWritten 0xEE⟩).2.ram.cells[5]? = some 0xFF := rfl
  obtain ⟨-, -, hsame, -, hknown, hother⟩ :=
    run_eq_of_agree_on_reads {k | k < 5} (selfWritten 0xEE) (selfWritten 0x11) (Cpu.boot 0) 9 rfl
      hcells hreads
  refine ⟨rfl, hcells, hexit, hsame.trans hexit, ?_, ?_⟩
  -- the cell of the `halt` is none of the five, but it has been stored to
  · rw [← hknown 5 (by simp [haccesses]), hcell]
  · rw [(hother 6 (by simp [haccesses])).2]
    rfl

end VirtualPC.Core
