/-
VirtualPC/Proofs/Program/SampleRounds.lean

What the samples compute, as programs.  Two of them paint: a stroke loads a colour and stores it,
and after `j` strokes the first `j` cells of the window are painted (`reaches_stroked`).  Three
of them loop, and are told by their rounds:

    demo      acc := 0;  then add one
    counter   acc := 0;  then add one, store it
    pulse     load the pixel, add 17, store it

Both kinds of loop go by `Reaches.rounds`: a round is a few single steps, and what it does to the
state is an equation between the state before it and the state after it.  The closed forms are
those of `reaches_demo`, `reaches_counter` and `reaches_pulse`.
-/
import VirtualPC.Proofs.Program.Rounds
import VirtualPC.Proofs.Program.Samples

namespace VirtualPC.Sample

open Program

variable {base vram : UInt16} {count : Nat} {value : Nat → UInt8} {ram : Ram} {old : UInt8}
variable {s : State}

/-! ### Strokes -/

/-- The first `j` strokes of a painting. -/
def strokes (vram : UInt16) (value : Nat → UInt8) (j : Nat) : List Instruction :=
  (List.range j).flatMap fun i => [.loadImmediate (value i), .store (vram + UInt16.ofNat i)]

@[simp] theorem length_strokes (vram : UInt16) (value : Nat → UInt8) (j : Nat) :
    (strokes vram value j).length = 2 * j := by
  simp [strokes, List.length_flatMap, List.map_const', Nat.mul_comm]

/-- A painting goes on with the next stroke, and in the end halts. -/
theorem painting_eq_strokes_append (vram : UInt16) (value : Nat → UInt8) {j : Nat}
    (hj : j < count) :
    ∃ rest, painting vram count value = strokes vram value j
      ++ .loadImmediate (value j) :: .store (vram + UInt16.ofNat j) :: rest := by
  obtain ⟨k, rfl⟩ := Nat.exists_eq_add_of_lt hj
  have hrange : List.range (j + k + 1) = List.range j ++ [j] ++ (List.range k).map (j + 1 + ·) := by
    rw [Nat.add_right_comm, List.range_add, List.range_succ]
  rw [painting, hrange, List.flatMap_append, List.flatMap_append, List.flatMap_singleton,
    List.append_assoc, List.append_assoc]
  exact ⟨_, rfl⟩

theorem getElem?_painting (vram : UInt16) (value : Nat → UInt8) {j : Nat} (hj : j < count) :
    (painting vram count value)[2 * j]? = some (.loadImmediate (value j)) ∧
      (painting vram count value)[2 * j + 1]? = some (.store (vram + UInt16.ofNat j)) := by
  obtain ⟨rest, heq⟩ := painting_eq_strokes_append vram value hj
  rw [heq]
  constructor
  · rw [List.getElem?_append_right (by simp), length_strokes, Nat.sub_self]
    rfl
  · rw [List.getElem?_append_right (by simp), length_strokes, Nat.add_sub_cancel_left]
    rfl

/-- A painting takes five bytes for each cell, and one for the halt. -/
theorem length_encodeAll_painting (vram : UInt16) (count : Nat) (value : Nat → UInt8) :
    (Instruction.encodeAll (painting vram count value)).length = 5 * count + 1 := by
  have hstroke : ∀ i, (Instruction.encode (.loadImmediate (value i))).length
      + (Instruction.encode (.store (vram + UInt16.ofNat i))).length = 5 := fun _ => rfl
  have hhalt : (Instruction.encode .halt).length = 1 := rfl
  simp only [Instruction.encodeAll, painting, List.flatMap_append, List.flatMap_assoc,
    List.flatMap_cons, List.flatMap_nil, List.append_nil, List.length_append,
    List.length_flatMap, hstroke, hhalt, List.map_const', List.sum_replicate_nat,
    List.length_range, Nat.mul_comm]

theorem getElem?_painting_halt : (painting vram count value)[2 * count]? = some .halt := by
  show (strokes vram value count ++ [.halt])[2 * count]? = some .halt
  rw [List.getElem?_append_right (by simp), length_strokes, Nat.sub_self]
  rfl

/-- A painting that was started on `ram`, after `j` strokes. -/
def Stroked (ram : Ram) (start : Nat) (value : Nat → UInt8) (j : Nat) (s : State) : Prop :=
  ∃ acc last, s = ⟨2 * j, acc, last, false⟩ ∧ ram.Patched start j value last

/-- A stroke paints the next cell. -/
theorem Stroked.next (base : UInt16) (hdrawn : vram.toNat + count ≤ guestSpace)
    (hroom : vram.toNat + count ≤ ram.size) {j : Nat} (hj : j < count)
    (h : Stroked ram vram.toNat value j s) :
    ∃ after, Reaches base.toNat (painting vram count value) 2 s after ∧
      Stroked ram vram.toNat value (j + 1) after := by
  obtain ⟨acc, mid, rfl, hmid⟩ := h
  obtain ⟨hload, hstore⟩ := getElem?_painting vram value hj
  obtain ⟨last, hwrite⟩ := Ram.exists_write (value j)
    (show vram.toNat + j < mid.size by rw [hmid.size]; omega)
  have hfirst : Reaches base.toNat (painting vram count value) 1 ⟨2 * j, acc, mid, false⟩
      ⟨2 * j + 1, value j, mid, false⟩ := .step rfl hload rfl
  have hsecond : Reaches base.toNat (painting vram count value) 1
      ⟨2 * j + 1, value j, mid, false⟩ ⟨2 * (j + 1), value j, last, false⟩ := by
    refine .step rfl hstore (carryOut?_store.2 ⟨last, ?_, rfl⟩)
    rw [toNat_vram_add hdrawn hj]
    exact hwrite
  exact ⟨_, hfirst.trans hsecond, _, last, rfl, hmid.snoc hwrite⟩

/-- **A painting paints its cells one after another.** -/
theorem reaches_stroked (base : UInt16) (value : Nat → UInt8)
    (hdrawn : vram.toNat + count ≤ guestSpace) (hroom : vram.toNat + count ≤ ram.size) :
    ∀ j ≤ count, ∃ s, Reaches base.toNat (painting vram count value) (2 * j) (State.start ram) s ∧
      Stroked ram vram.toNat value j s :=
  Reaches.rounds (fun _ hj _ h => h.next base hdrawn hroom hj)
    ⟨0, ram, rfl, .nil ram vram.toNat value⟩

/-- Behind its last stroke a painting stops. -/
theorem reaches_painted (base : UInt16) (value : Nat → UInt8)
    (hdrawn : vram.toNat + count ≤ guestSpace) (hroom : vram.toNat + count ≤ ram.size) :
    ∃ s, Reaches base.toNat (painting vram count value) (2 * count + 1) (State.start ram) s ∧
      s.stopped = true ∧ ram.Patched vram.toNat count value s.ram := by
  obtain ⟨_, hreach, acc, last, rfl, hlast⟩ :=
    reaches_stroked base value hdrawn hroom count (Nat.le_refl count)
  exact ⟨_, hreach.trans (.step rfl getElem?_painting_halt rfl), rfl, hlast⟩

/-! ### Loops -/

/-- A jump leads to the instruction whose address is its target. -/
theorem reaches_jump {program : List Instruction} {target : UInt16} {index : Nat}
    (hreach : base.toNat + (Instruction.encodeAll program).length ≤ guestSpace)
    (hrun : s.stopped = false) (hi : program[s.index]? = some (.jump target))
    (hlt : index < program.length)
    (htarget : target = base + UInt16.ofNat (offset program index)) :
    Reaches base.toNat program 1 s { s with index := index } := by
  have hindex : indexAt? base.toNat program target.toNat = some index := by
    rw [indexAt?_eq_some_iff, htarget, toNat_label hreach hlt]
    exact ⟨hlt, rfl⟩
  refine .step hrun hi ?_
  rw [carryOut?, hindex]
  rfl

section Demo

variable (hreach : base.toNat + (Instruction.encodeAll (demo.program base vram)).length
  ≤ guestSpace)

include hreach

/-- A round of `demo` adds one. -/
theorem reaches_demo_round (acc : UInt8) (ram : Ram) :
    Reaches base.toNat (demo.program base vram) 2 ⟨1, acc, ram, false⟩
      ⟨1, acc + 1, ram, false⟩ := by
  have hadd : Reaches base.toNat (demo.program base vram) 1 ⟨1, acc, ram, false⟩
      ⟨2, acc + 1, ram, false⟩ := .step rfl rfl rfl
  exact hadd.trans (reaches_jump hreach rfl rfl (show 1 < 3 by decide) rfl)

/-- **`demo` counts its rounds** in the accumulator. -/
theorem reaches_demo (ram : Ram) (j : Nat) :
    Reaches base.toNat (demo.program base vram) (1 + 2 * j) (State.start ram)
      ⟨1, UInt8.ofNat j, ram, false⟩ := by
  have hlead : Reaches base.toNat (demo.program base vram) 1 (State.start ram)
      ⟨1, UInt8.ofNat 0, ram, false⟩ := .step rfl rfl rfl
  have hround : ∀ k < j, ∀ s, s = ⟨1, UInt8.ofNat k, ram, false⟩ → ∃ after,
      Reaches base.toNat (demo.program base vram) 2 s after ∧
        after = ⟨1, UInt8.ofNat (k + 1), ram, false⟩ := by
    rintro k - s rfl
    exact ⟨_, reaches_demo_round hreach _ ram, by rw [UInt8.ofNat_add]; rfl⟩
  obtain ⟨after, hafter, rfl⟩ := Reaches.rounds hround rfl j (Nat.le_refl j)
  exact hlead.trans hafter

end Demo

section Counter

variable (hreach : base.toNat + (Instruction.encodeAll (counter.program base vram)).length
  ≤ guestSpace)

/-- `counter` after `j` rounds on `ram`, whose cell held `old`. -/
def Counted (ram : Ram) (old : UInt8) (j : Nat) (s : State) : Prop :=
  ∃ last, s = ⟨1, UInt8.ofNat j, last, false⟩ ∧
    ram.Patched counterAddress.toNat 1 (fun _ => if j = 0 then old else UInt8.ofNat j) last

include hreach

/-- A round of `counter` adds one and stores it. -/
theorem Counted.next (hcell : ram.cells[counterAddress.toNat]? = some old) {j : Nat}
    (h : Counted ram old j s) :
    ∃ after, Reaches base.toNat (counter.program base vram) 3 s after ∧
      Counted ram old (j + 1) after := by
  obtain ⟨mid, rfl, hmid⟩ := h
  obtain ⟨last, hwrite⟩ := Ram.exists_write (UInt8.ofNat (j + 1)) (hmid.lt_size hcell)
  have hadd : Reaches base.toNat (counter.program base vram) 1 ⟨1, UInt8.ofNat j, mid, false⟩
      ⟨2, UInt8.ofNat (j + 1), mid, false⟩ := .step rfl rfl (by rw [UInt8.ofNat_add]; rfl)
  have hstore : Reaches base.toNat (counter.program base vram) 1
      ⟨2, UInt8.ofNat (j + 1), mid, false⟩ ⟨3, UInt8.ofNat (j + 1), last, false⟩ :=
    .step rfl rfl (carryOut?_store.2 ⟨last, hwrite, rfl⟩)
  refine ⟨_, (hadd.trans hstore).trans (reaches_jump hreach rfl rfl (show 1 < 4 by decide) rfl),
    last, rfl, ?_⟩
  rw [if_neg (Nat.succ_ne_zero j)]
  exact hmid.overwrite hwrite

/-- **`counter` counts its rounds** in the accumulator and, from the first on, in its cell. -/
theorem reaches_counter (hcell : ram.cells[counterAddress.toNat]? = some old) (j : Nat) :
    ∃ s, Reaches base.toNat (counter.program base vram) (1 + 3 * j) (State.start ram) s ∧
      Counted ram old j s := by
  have hlead : Reaches base.toNat (counter.program base vram) 1 (State.start ram)
      ⟨1, UInt8.ofNat 0, ram, false⟩ := .step rfl rfl rfl
  have hstart : Counted ram old 0 ⟨1, UInt8.ofNat 0, ram, false⟩ := ⟨ram, rfl, .of_cell hcell⟩
  obtain ⟨s, hrounds, hs⟩ := Reaches.rounds (fun _ _ _ h => h.next hreach hcell) hstart j
    (Nat.le_refl j)
  exact ⟨s, hlead.trans hrounds, hs⟩

end Counter

section Pulse

variable (hreach : base.toNat + (Instruction.encodeAll (pulse.program base vram)).length
  ≤ guestSpace)

/-- `pulse` after `j` rounds on `ram`, whose first pixel was `old`. -/
def Pulsed (ram : Ram) (start : Nat) (old : UInt8) (j : Nat) (s : State) : Prop :=
  ∃ acc last, s = ⟨0, acc, last, false⟩ ∧
    ram.Patched start 1 (fun _ => old + UInt8.ofNat (17 * j)) last ∧
    (0 < j → acc = old + UInt8.ofNat (17 * j))

include hreach

/-- A round of `pulse` adds 17 to the first pixel. -/
theorem Pulsed.next (hcell : ram.cells[vram.toNat]? = some old) {j : Nat}
    (h : Pulsed ram vram.toNat old j s) :
    ∃ after, Reaches base.toNat (pulse.program base vram) 4 s after ∧
      Pulsed ram vram.toNat old (j + 1) after := by
  obtain ⟨acc, mid, rfl, hmid, -⟩ := h
  have hsum : old + UInt8.ofNat (17 * j) + 0x11 = old + UInt8.ofNat (17 * (j + 1)) := by
    rw [Nat.mul_succ, UInt8.ofNat_add, UInt8.add_assoc]
    rfl
  obtain ⟨last, hwrite⟩ :=
    Ram.exists_write (old + UInt8.ofNat (17 * (j + 1))) (hmid.lt_size hcell)
  have hload : Reaches base.toNat (pulse.program base vram) 1 ⟨0, acc, mid, false⟩
      ⟨1, old + UInt8.ofNat (17 * j), mid, false⟩ :=
    .step rfl rfl (by rw [carryOut?, hmid.getElem?_one]; rfl)
  have hadd : Reaches base.toNat (pulse.program base vram) 1
      ⟨1, old + UInt8.ofNat (17 * j), mid, false⟩
      ⟨2, old + UInt8.ofNat (17 * (j + 1)), mid, false⟩ :=
    .step rfl rfl (by rw [← hsum]; rfl)
  have hstore : Reaches base.toNat (pulse.program base vram) 1
      ⟨2, old + UInt8.ofNat (17 * (j + 1)), mid, false⟩
      ⟨3, old + UInt8.ofNat (17 * (j + 1)), last, false⟩ :=
    .step rfl rfl (carryOut?_store.2 ⟨last, hwrite, rfl⟩)
  have hjump : Reaches base.toNat (pulse.program base vram) 1
      ⟨3, old + UInt8.ofNat (17 * (j + 1)), last, false⟩
      ⟨0, old + UInt8.ofNat (17 * (j + 1)), last, false⟩ :=
    reaches_jump hreach rfl rfl (show 0 < 4 by decide) (by simp)
  exact ⟨_, ((hload.trans hadd).trans hstore).trans hjump, _, last, rfl, hmid.overwrite hwrite,
    fun _ => rfl⟩

/-- **`pulse` adds 17 to the first pixel** in each of its rounds. -/
theorem reaches_pulse (hcell : ram.cells[vram.toNat]? = some old) (j : Nat) :
    ∃ s, Reaches base.toNat (pulse.program base vram) (4 * j) (State.start ram) s ∧
      Pulsed ram vram.toNat old j s := by
  have hstart : Pulsed ram vram.toNat old 0 (State.start ram) := by
    refine ⟨0, ram, rfl, ?_, fun h => (Nat.lt_irrefl 0 h).elim⟩
    rw [show old + UInt8.ofNat (17 * 0) = old from UInt8.add_zero old]
    exact .of_cell hcell
  exact Reaches.rounds (fun _ _ _ h => h.next hreach hcell) hstart j (Nat.le_refl j)

end Pulse

end VirtualPC.Sample
