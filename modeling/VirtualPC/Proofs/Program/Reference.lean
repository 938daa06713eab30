/-
VirtualPC/Proofs/Program/Reference.lean

Programs run one instruction at a time.  Here a program is a list of instructions and not
their bytes: a state names the next instruction by its *index*, and a jump goes to the index
of the instruction that starts at its target,

    base + offset program index = target,

where `offset` is the total width of the instructions before the index.  There is no program
counter and nothing is decoded, so this machine says what a program is meant to do.

`WellFormed base size program` collects what the layout of a program has to promise: it fits
where it is loaded, its jumps lead to instructions, its loads stay inside RAM, and its stores
stay inside RAM and off its own code.  Main result: a well-formed program gets stuck nowhere
but after a `halt` and past its end (`step?_eq_none_iff`).
-/
import Mathlib.Algebra.GroupWithZero.Nat
import VirtualPC.Instruction.Decode
import VirtualPC.Proofs.Memory.Cells

namespace VirtualPC.Program

/-! ### Layout -/

/-- The number of bytes before the instruction of the given index. -/
def offset (program : List Instruction) (index : Nat) : Nat :=
  ((program.take index).map Instruction.width).sum

/-- The index of the instruction that starts at an address, in a program loaded at `base`. -/
def indexAt? (base : Nat) (program : List Instruction) (address : Nat) : Option Nat :=
  (List.range program.length).find? fun index => base + offset program index = address

/-- What the layout of a program in RAM of `size` cells promises. -/
structure WellFormed (base size : Nat) (program : List Instruction) : Prop where
  /-- No unassigned opcode. -/
  known : ∀ byte, .unknown byte ∉ program
  /-- The program counter reaches every byte without going round. -/
  reachable : base + (Instruction.encodeAll program).length ≤ guestSpace
  fits : base + (Instruction.encodeAll program).length ≤ size
  jumps : ∀ target, .jump target ∈ program ∨ .jumpIfZero target ∈ program →
    ∃ index < program.length, base + offset program index = target.toNat
  loads : ∀ address, .load address ∈ program → address.toNat < size
  /-- Stores stay inside RAM and leave the code alone. -/
  stores : ∀ address, .store address ∈ program → address.toNat < size ∧
    ¬ (base ≤ address.toNat ∧ address.toNat < base + (Instruction.encodeAll program).length)

/-! ### The machine -/

/-- Where a program stands. -/
structure State where
  /-- The index of the next instruction. -/
  index : Nat
  acc : UInt8
  ram : Ram
  /-- Whether a `halt` has been carried out. -/
  stopped : Bool

/-- A program about to start. -/
def State.start (ram : Ram) : State := ⟨0, 0, ram, false⟩

/-- The state with the next index. -/
def State.next (s : State) : State := { s with index := s.index + 1 }

/-- The state after an instruction.  There is none when a load or store leaves RAM, a jump
leads to no instruction, or the instruction has no meaning. -/
def carryOut? (base : Nat) (program : List Instruction) (s : State) :
    Instruction → Option State
  | .nop => some s.next
  | .loadImmediate value => some { s.next with acc := value }
  | .store address =>
    match s.ram.write address.toNat s.acc with
    | .ok ram => some { s.next with ram := ram }
    | .error _ => none
  | .load address =>
    s.ram.cells[address.toNat]?.map fun byte => { s.next with acc := byte }
  | .addImmediate value => some { s.next with acc := s.acc + value }
  | .subImmediate value => some { s.next with acc := s.acc - value }
  | .jump target =>
    (indexAt? base program target.toNat).map fun index => { s with index := index }
  | .jumpIfZero target =>
    if s.acc = 0 then
      (indexAt? base program target.toNat).map fun index => { s with index := index }
    else some s.next
  | .halt => some { s.next with stopped := true }
  | .unknown _ => none

/-- One step: the instruction carried out and the state after it, unless the program has
stopped, has run past its end or is stuck. -/
def step? (base : Nat) (program : List Instruction) (s : State) :
    Option (Instruction × State) :=
  if s.stopped then none
  else do
    let i ← program[s.index]?
    let after ← carryOut? base program s i
    return (i, after)

/-- `n` steps: the instructions carried out, in order, and the state after them, unless there
are fewer. -/
def run? (base : Nat) (program : List Instruction) : (n : Nat) → State →
    Option (List Instruction × State)
  | 0, s => some ([], s)
  | n + 1, s => do
    let (i, after) ← step? base program s
    let (trace, last) ← run? base program n after
    return (i :: trace, last)

variable {base size : Nat} {program : List Instruction} {s after : State} {i : Instruction}

/-! ### Offsets -/

@[simp] theorem offset_zero (program : List Instruction) : offset program 0 = 0 := by
  simp [offset]

theorem offset_cons_succ (i : Instruction) (program : List Instruction) (index : Nat) :
    offset (i :: program) (index + 1) = i.width + offset program index := by
  simp [offset]

theorem offset_succ {index : Nat} (h : program[index]? = some i) :
    offset program (index + 1) = offset program index + i.width := by
  unfold offset
  rw [List.take_add_one, h]
  simp

/-- No two instructions start at the same place. -/
theorem offset_lt {first second : Nat} (h : first < second) (hle : second ≤ program.length) :
    offset program first < offset program second := by
  induction second with
  | zero => cases h
  | succ k ih =>
    have hstep := offset_succ (List.getElem?_eq_getElem (show k < program.length from hle))
    have hwidth := Instruction.width_pos program[k]
    rcases Nat.lt_or_eq_of_le (Nat.le_of_lt_succ h) with hlt | rfl
    · have := ih hlt (Nat.le_of_succ_le hle)
      omega
    · omega

theorem encodeAll_cons (i : Instruction) (program : List Instruction) :
    Instruction.encodeAll (i :: program) = i.encode ++ Instruction.encodeAll program := by
  simp [Instruction.encodeAll]

/-- The bytes of an instruction stand in the image at its offset. -/
theorem getElem?_encodeAll {index : Nat} (h : program[index]? = some i) {k : Nat}
    (hk : k < i.width) :
    (Instruction.encodeAll program)[offset program index + k]? = i.encode[k]? := by
  induction program generalizing index with
  | nil => cases h
  | cons j rest ih =>
    rw [encodeAll_cons]
    cases index with
    | zero =>
      obtain rfl : j = i := Option.some.inj h
      rw [offset_zero, Nat.zero_add, List.getElem?_append_left (by simpa using hk)]
    | succ index =>
      -- the bytes of the head come first, and the rest of the image is that of the rest
      have hj : j.encode.length ≤ j.width + offset rest index + k := by
        rw [Instruction.length_encode]; omega
      rw [offset_cons_succ, List.getElem?_append_right hj, Instruction.length_encode,
        show j.width + offset rest index + k - j.width = offset rest index + k by omega]
      exact ih h

theorem offset_lt_length {index : Nat} (h : program[index]? = some i) {k : Nat}
    (hk : k < i.width) :
    offset program index + k < (Instruction.encodeAll program).length := by
  have hbyte := getElem?_encodeAll h hk
  have hlt : k < i.encode.length := by simpa using hk
  rw [List.getElem?_eq_getElem hlt] at hbyte
  exact (List.getElem?_eq_some_iff.1 hbyte).1

/-! ### Jumps -/

/-- An address names at most one index: the instruction that starts there. -/
theorem indexAt?_eq_some_iff {address index : Nat} :
    indexAt? base program address = some index
      ↔ index < program.length ∧ base + offset program index = address := by
  unfold indexAt?
  rw [List.find?_range_eq_some]
  constructor
  · rintro ⟨hstart, hmem, -⟩
    exact ⟨List.mem_range.1 hmem, of_decide_eq_true hstart⟩
  · rintro ⟨hlt, hstart⟩
    refine ⟨decide_eq_true hstart, List.mem_range.2 hlt, ?_⟩
    intro earlier hearlier
    have := offset_lt hearlier (Nat.le_of_lt hlt)
    simp only [Bool.not_eq_eq_eq_not, Bool.not_true, decide_eq_false_iff_not]
    omega

/-! ### Steps of a well-formed program -/

/-- What a step does, guards included. -/
theorem step?_eq_some_iff :
    step? base program s = some (i, after)
      ↔ s.stopped = false ∧ program[s.index]? = some i ∧
        carryOut? base program s i = some after := by
  unfold step?
  rcases s.stopped with _ | _
  · simp only [Bool.false_eq_true, ↓reduceIte, true_and]
    constructor
    · intro h
      obtain ⟨j, hj, h⟩ := Option.bind_eq_some_iff.1 h
      obtain ⟨t, ht, h⟩ := Option.bind_eq_some_iff.1 h
      cases h
      exact ⟨hj, ht⟩
    · rintro ⟨hi, hafter⟩
      simp [hi, hafter]
  · simp

theorem carryOut?_store {address : UInt16} :
    carryOut? base program s (.store address) = some after
      ↔ ∃ ram, s.ram.write address.toNat s.acc = .ok ram ∧ { s.next with ram := ram } = after := by
  rcases h : s.ram.write address.toNat s.acc with cause | ram <;> simp [carryOut?, h]

/-- An instruction of a well-formed program can always be carried out. -/
theorem exists_carryOut? (hp : WellFormed base size program) (hsize : s.ram.size = size)
    (hi : i ∈ program) : ∃ after, carryOut? base program s i = some after := by
  -- both jumps look their target up in the same way
  have hjump : ∀ target, .jump target ∈ program ∨ .jumpIfZero target ∈ program →
      ∃ k, indexAt? base program target.toNat = some k := by
    intro target h
    obtain ⟨index, hlt, heq⟩ := hp.jumps target h
    exact ⟨index, indexAt?_eq_some_iff.2 ⟨hlt, heq⟩⟩
  cases i with
  | store address =>
    obtain ⟨ram, hram⟩ := Ram.exists_write s.acc (hsize ▸ (hp.stores address hi).1)
    exact ⟨{ s.next with ram := ram }, carryOut?_store.2 ⟨ram, hram, rfl⟩⟩
  | load address =>
    obtain ⟨byte, hbyte⟩ := Ram.getElem?_isSome (hsize ▸ hp.loads address hi)
    exact ⟨{ s.next with acc := byte }, by simp [carryOut?, hbyte]⟩
  | jump target =>
    obtain ⟨k, hk⟩ := hjump target (.inl hi)
    exact ⟨{ s with index := k }, by simp [carryOut?, hk]⟩
  | jumpIfZero target =>
    obtain ⟨k, hk⟩ := hjump target (.inr hi)
    by_cases hacc : s.acc = 0
    · exact ⟨{ s with index := k }, by simp [carryOut?, hacc, hk]⟩
    · exact ⟨s.next, by simp [carryOut?, hacc]⟩
  | unknown byte => exact absurd hi (hp.known byte)
  | nop | loadImmediate | addImmediate | subImmediate | halt => exact ⟨_, rfl⟩

/-- **A well-formed program gets stuck nowhere**: it takes a step unless it has stopped or
has run past its end. -/
theorem step?_eq_none_iff (hp : WellFormed base size program) (hsize : s.ram.size = size) :
    step? base program s = none ↔ s.stopped = true ∨ program.length ≤ s.index := by
  rcases hs : s.stopped with _ | _
  · rcases Nat.lt_or_ge s.index program.length with hlt | hge
    · obtain ⟨after, hafter⟩ :=
        exists_carryOut? (s := s) hp hsize (List.getElem_mem hlt)
      have hstep := step?_eq_some_iff.2 ⟨hs, List.getElem?_eq_getElem hlt, hafter⟩
      rw [hstep]
      simp only [reduceCtorEq, Bool.false_eq_true, false_or, false_iff]
      omega
    · simp [step?, hs, hge]
  · simp [step?, hs]

/-! ### Runs -/

theorem size_carryOut? (h : carryOut? base program s i = some after) :
    after.ram.size = s.ram.size := by
  cases i with
  | store address =>
    obtain ⟨ram, hram, rfl⟩ := carryOut?_store.1 h
    exact Ram.size_write hram
  | load address =>
    obtain ⟨byte, -, rfl⟩ := Option.map_eq_some_iff.1 h
    rfl
  | jump target =>
    obtain ⟨index, -, rfl⟩ := Option.map_eq_some_iff.1 h
    rfl
  | jumpIfZero target =>
    by_cases hacc : s.acc = 0
    · rw [carryOut?, if_pos hacc] at h
      obtain ⟨index, -, rfl⟩ := Option.map_eq_some_iff.1 h
      rfl
    · rw [carryOut?, if_neg hacc] at h
      cases h
      rfl
  | unknown byte => cases h
  | nop | loadImmediate | addImmediate | subImmediate | halt =>
    cases h
    rfl

/-- A run carries out as many instructions as it has steps and keeps the size of RAM. -/
theorem length_and_size_of_run? {n : Nat} {trace : List Instruction}
    (h : run? base program n s = some (trace, after)) :
    trace.length = n ∧ after.ram.size = s.ram.size := by
  induction n generalizing s trace with
  | zero =>
    cases h
    exact ⟨rfl, rfl⟩
  | succ n ih =>
    obtain ⟨⟨i, next⟩, hstep, h⟩ := Option.bind_eq_some_iff.1 h
    obtain ⟨⟨rest, last⟩, hrest, h⟩ := Option.bind_eq_some_iff.1 h
    cases h
    obtain ⟨hlength, hsize⟩ := ih hrest
    obtain ⟨-, -, hafter⟩ := step?_eq_some_iff.1 hstep
    exact ⟨by rw [List.length_cons, hlength], hsize.trans (size_carryOut? hafter)⟩

end VirtualPC.Program
