/-
VirtualPC/Proofs/Program/Sweep.lean

Images and the programs in them.  An image is walked from its first byte: an instruction is
decoded, the walk goes on behind it, and it ends where there is nothing left to decode

    walk image offset.

The sweep of an image, which goes by what is left of the image and not by offsets, finds the
same instructions (`walk_eq_sweepFrom`), each at its place in the program
(`sweepFrom_encodeAll`).

Main results: the two directions between programs and images.  A program of canonical
instructions is found again in its image, exactly and to the end (`walk_emitAll`).  And any
bytes at all are a program: what is found in them encodes to the same bytes, but for at most
two zeros where the last operand runs past the end (`encodeAll_walk`).
-/
import VirtualPC.Assembler
import VirtualPC.Proofs.Instruction.Decoding
import VirtualPC.Proofs.Program.Reference

namespace VirtualPC.Program

open Instruction

variable {image part : List UInt8} {program : List Instruction} {i : Instruction} {offset : Nat}

/-! ### Encodings of programs -/

/-- The image of the first instructions of a program ends where the next one starts. -/
theorem length_encodeAll_take (program : List Instruction) (index : Nat) :
    (encodeAll (program.take index)).length = Program.offset program index := by
  simp [encodeAll, Program.offset, List.length_flatMap]

/-- The instructions of a program are canonical if its unknown bytes are unassigned. -/
theorem forall_canonical_iff :
    (∀ i ∈ program, i.Canonical) ↔
      ∀ byte, .unknown byte ∈ program → Opcode.ofByte? byte = none := by
  constructor
  · intro h byte hbyte
    exact h _ hbyte
  · intro h i hi
    cases i with
    | unknown byte => exact h byte hi
    | _ => trivial

/-! ### The walk -/

theorem decodeAt_eq_none_iff : decodeAt image offset = none ↔ image.length ≤ offset := by
  rw [← List.drop_eq_nil_iff]
  unfold decodeAt
  rcases image.drop offset with _ | ⟨byte, rest⟩ <;> simp

theorem lt_length_of_decodeAt (h : decodeAt image offset = some i) : offset < image.length := by
  refine Nat.lt_of_not_le fun hle => ?_
  rw [decodeAt_eq_none_iff.2 hle] at h
  cases h

/-- The walk through an image from an offset on: the instructions found, each one width behind
the one before, and the offset at which nothing is left. -/
def walk (image : List UInt8) (offset : Nat) : List Instruction × Nat :=
  match _h : decodeAt image offset with
  | none => ([], offset)
  | some i =>
    let (rest, stop) := walk image (offset + i.width)
    (i :: rest, stop)
termination_by image.length - offset
decreasing_by
  have := lt_length_of_decodeAt ‹decodeAt image offset = some i›
  have := i.width_pos
  omega

/-- The walk ends where nothing can be decoded. -/
theorem decodeAt_walk (image : List UInt8) (offset : Nat) :
    decodeAt image (walk image offset).2 = none := by
  fun_induction walk image offset with
  | case1 offset h => exact h
  | case2 offset i h rest stop hrest ih => rwa [hrest] at ih

/-- The walk has passed the encoded instructions. -/
theorem walk_stop (image : List UInt8) (offset : Nat) :
    (walk image offset).2 = offset + (encodeAll (walk image offset).1).length := by
  fun_induction walk image offset with
  | case1 offset h => rfl
  | case2 offset i h rest stop hrest ih =>
    rw [hrest] at ih
    rw [ih, encodeAll_cons, List.length_append, length_encode, Nat.add_assoc]

/-! ### The sweep -/

theorem sweepFrom_cons (offset : Nat) (byte : UInt8) (rest : List UInt8) :
    sweepFrom offset (byte :: rest)
      = (offset, decodeHead byte rest) :: sweepFrom (offset + (decodeHead byte rest).width)
          (rest.drop ((decodeHead byte rest).width - 1)) := by
  rw [sweepFrom]

@[simp] theorem sweepFrom_nil (offset : Nat) : sweepFrom offset [] = [] := by rw [sweepFrom]

/-- A sweep from an offset of an image goes on at the offset behind the first instruction. -/
theorem sweepFrom_drop (h : decodeAt image offset = some i) :
    sweepFrom offset (image.drop offset)
      = (offset, i) :: sweepFrom (offset + i.width) (image.drop (offset + i.width)) := by
  unfold decodeAt at h
  rcases hpart : image.drop offset with _ | ⟨byte, rest⟩
  · rw [hpart] at h
    cases h
  · rw [hpart] at h
    obtain rfl : decodeHead byte rest = i := Option.some.inj h
    have hwidth := (decodeHead byte rest).width_pos
    rw [sweepFrom_cons, ← List.drop_drop, hpart]
    obtain ⟨k, hk⟩ := Nat.exists_eq_add_of_lt hwidth
    rw [Nat.zero_add] at hk
    rw [hk, Nat.add_sub_cancel, List.drop_succ_cons]

/-- **The walk and the sweep find the same instructions.** -/
theorem walk_eq_sweepFrom (image : List UInt8) (offset : Nat) :
    (walk image offset).1 = (sweepFrom offset (image.drop offset)).map Prod.snd := by
  fun_induction walk image offset with
  | case1 offset h =>
    rw [List.drop_eq_nil_iff.2 (decodeAt_eq_none_iff.1 h), sweepFrom_nil, List.map_nil]
  | case2 offset i h rest stop hrest ih =>
    rw [hrest] at ih
    rw [sweepFrom_drop h, List.map_cons, ← ih]

/-! ### From a program to its image and back -/

/-- A sweep of an encoded program finds its instructions, each at its offset. -/
theorem sweepFrom_encodeAll (h : ∀ i ∈ program, i.Canonical) (start : Nat) :
    sweepFrom start (encodeAll program)
      = program.mapIdx fun index i => (start + Program.offset program index, i) := by
  induction program generalizing start with
  | nil => exact sweepFrom_nil start
  | cons i rest ih =>
    obtain ⟨hi, hrest⟩ := List.forall_mem_cons.1 h
    obtain ⟨byte, hencode, -⟩ := hi.encode_eq
    -- the first instruction is decoded whole, and the sweep goes on behind it
    have hfirst := decodeHead_of_encode hi hencode (encodeAll rest)
    have hdrop : (i.operandBytes ++ encodeAll rest).drop (i.width - 1) = encodeAll rest := by
      rw [width_eq_length_operandBytes, Nat.add_sub_cancel, List.drop_left]
    rw [encodeAll_cons, hencode, List.cons_append, sweepFrom_cons, hfirst, hdrop, ih hrest,
      List.mapIdx_cons]
    simp only [offset_zero, offset_cons_succ, Nat.add_zero, Nat.add_assoc]

theorem image_start_emitAll (base : UInt16) (program : List Instruction) :
    ((Assembler.start base).emitAll program).image = encodeAll program := by
  rw [Assembler.image_emitAll]
  rfl

/-- **Decoding undoes encoding.**  Where unknown bytes are unassigned, the walk through the
image of a program finds the instructions of the program and ends at the end of the image,
where nothing can be decoded.  Each instruction is encoded as many bytes as it is wide, behind
those that are there. -/
theorem walk_emitAll (base : UInt16) (program : List Instruction)
    (hunknown : ∀ byte, .unknown byte ∈ program → Opcode.ofByte? byte = none) :
    let image := ((Assembler.start base).emitAll program).image
    walk image 0 = (program, image.length) ∧ decodeAt image image.length = none ∧
      ∀ (a : Assembler) (i : Instruction), ∃ bytes, bytes.length = i.width ∧
        (a.emit i).image = a.image ++ bytes := by
  intro image
  have himage : image = encodeAll program := image_start_emitAll base program
  have hfound : (walk image 0).1 = program := by
    rw [walk_eq_sweepFrom, List.drop_zero, himage,
      sweepFrom_encodeAll (forall_canonical_iff.2 hunknown)]
    simp [List.mapIdx_eq_zipIdx_map, Function.comp_def]
  refine ⟨Prod.ext hfound ?_, decodeAt_eq_none_iff.2 (Nat.le_refl _), ?_⟩
  · rw [walk_stop, hfound, Nat.zero_add, himage]
  · intro a i
    exact ⟨i.encode, length_encode i, Assembler.image_emit a i⟩

/-- A program with a byte of data between a jump and a `halt`. -/
def mixed : List Instruction :=
  [.load 0x8000, .addImmediate 0x11, .jumpIfZero 0x1234, .unknown 0x99, .halt]

theorem walk_mixed : (∀ byte, .unknown byte ∈ mixed → Opcode.ofByte? byte = none) ∧
    walk [0x03, 0x80, 0x00, 0x04, 0x11, 0x06, 0x12, 0x34, 0x99, 0xFF] 0 = (mixed, 10) := by
  have hunknown : ∀ byte, .unknown byte ∈ mixed → Opcode.ofByte? byte = none := by
    intro byte hbyte
    obtain rfl : byte = 0x99 := by simpa [mixed] using hbyte
    exact Opcode.ofByte?_eq_none_iff.2 (by decide)
  exact ⟨hunknown, (walk_emitAll 0 mixed hunknown).1⟩

/-! ### From any bytes to a program and back -/

/-- What a sweep finds is canonical. -/
theorem canonical_of_mem_sweepFrom {start : Nat}
    (h : i ∈ (sweepFrom start part).map Prod.snd) : i.Canonical := by
  fun_induction sweepFrom start part with
  | case1 => cases h
  | case2 start byte rest j ih =>
    obtain rfl | h := List.mem_cons.1 h
    · exact (decodeHead_spec byte rest).1
    · exact ih h

/-- Bytes lack `k` of the operand bytes of the last instruction of a program. -/
def CutShort (part : List UInt8) (k : Nat) (program : List Instruction) : Prop :=
  ∃ front last, program = front ++ [last] ∧ (encodeAll front).length < part.length ∧
    last.operandBytes.length = (part.drop ((encodeAll front).length + 1)).length + k

theorem CutShort.cons {k : Nat} (h : CutShort part k program) (i : Instruction) :
    CutShort (i.encode ++ part) k (i :: program) := by
  obtain ⟨front, last, rfl, hlt, hlength⟩ := h
  refine ⟨i :: front, last, rfl, ?_, ?_⟩
  · rw [encodeAll_cons, List.length_append, List.length_append]
    omega
  · rw [encodeAll_cons, List.length_append, Nat.add_assoc, List.drop_append, hlength]
    simp

/-- What a sweep finds encodes to the bytes it was found in, with zeros for what is missing of
the last operand. -/
theorem encodeAll_sweepFrom (start : Nat) (part : List UInt8) :
    ∃ k ≤ 2, encodeAll ((sweepFrom start part).map Prod.snd) = part ++ List.replicate k 0 ∧
      (0 < k → CutShort part k ((sweepFrom start part).map Prod.snd)) := by
  fun_induction sweepFrom start part with
  | case1 start => exact ⟨0, by decide, rfl, fun h => absurd h (Nat.lt_irrefl 0)⟩
  | case2 start byte rest i ih =>
    have hhead : i.encode ++ rest.drop (i.width - 1)
        = byte :: rest ++ List.replicate (i.width - (rest.length + 1)) 0 :=
      (decodeHead_spec byte rest).2
    have hwidth := width_le i
    rcases Nat.lt_or_ge (rest.length + 1) i.width with hlt | hge
    -- the operand runs past the end, and nothing is left behind it
    · have hnil : rest.drop (i.width - 1) = [] := List.drop_eq_nil_of_le (by omega)
      rw [hnil, List.append_nil] at hhead
      rw [hnil, sweepFrom_nil, List.map_cons, List.map_nil, encodeAll_cons, hhead]
      refine ⟨i.width - (rest.length + 1), by omega, List.append_nil _, fun _ => ?_⟩
      refine ⟨[], i, rfl, Nat.succ_pos _, ?_⟩
      have hoperand := width_eq_length_operandBytes i
      rw [show (encodeAll []).length + 1 = 1 from rfl, List.drop_succ_cons, List.drop_zero]
      omega
    -- the instruction is whole, and what is missing is missing behind it
    · rw [Nat.sub_eq_zero_of_le hge, List.replicate_zero, List.append_nil] at hhead
      obtain ⟨k, hk, hencode, hcut⟩ := ih
      refine ⟨k, hk, ?_, fun hpos => hhead ▸ (hcut hpos).cons i⟩
      rw [List.map_cons, encodeAll_cons, hencode, ← List.append_assoc, hhead]

/-- **Encoding undoes decoding**, on any bytes.  The walk through them ends where nothing can
be decoded.  The instructions found, in which unknown bytes are unassigned, are encoded as the
same bytes and at most two zeros behind them; if there are any, then the last instruction
starts inside the bytes and so many bytes of its operand are missing. -/
theorem encodeAll_walk (bytes : List UInt8) :
    let program := (walk bytes 0).1
    decodeAt bytes (walk bytes 0).2 = none ∧
      (∀ byte, .unknown byte ∈ program → Opcode.ofByte? byte = none) ∧
      ∃ k ≤ 2, encodeAll program = bytes ++ List.replicate k 0 ∧
        (0 < k → ∃ front last, program = front ++ [last] ∧
          (encodeAll front).length < bytes.length ∧
          last.operandBytes.length = (bytes.drop ((encodeAll front).length + 1)).length + k) := by
  intro program
  have hfound : program = (sweepFrom 0 bytes).map Prod.snd := walk_eq_sweepFrom bytes 0
  rw [hfound]
  exact ⟨decodeAt_walk bytes 0, forall_canonical_iff.1 fun i => canonical_of_mem_sweepFrom,
    encodeAll_sweepFrom 0 bytes⟩

end VirtualPC.Program
