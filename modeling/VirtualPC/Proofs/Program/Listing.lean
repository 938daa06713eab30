/-
VirtualPC/Proofs/Program/Listing.lean

Listings as parts of a sweep.  A listing is collected in one walk that skips, counts and stops;
here it is the lines of the sweep, some dropped and some taken (`collect_eq`), so a window of an
image that has any bytes is a part of the listing of the whole image (`window_eq`).

Assembling and listing both keep an address: the assembler that of the next byte, from the
number of bytes so far, and the listing that of an instruction, from its offset.  Each goes
round at 64 KiB on its own.

Main result: the listing of an assembled image has one line for each thing emitted, at the
address that the assembler had reached when it was emitted (`window_of_emissions`).
-/
import VirtualPC.Listing
import VirtualPC.Proofs.Program.Sweep

namespace VirtualPC

open Instruction Text

/-! ### Windows of the sweep -/

namespace Listing

variable {base : UInt16} {image : List UInt8}

/-- Collecting lines takes a part of the sweep. -/
theorem collect_eq (base : UInt16) (offset skip count : Nat) (shown : List String)
    (part : List UInt8) :
    collect base offset skip count shown part
      = shown.reverse ++ (((sweepFrom offset part).drop skip).take count).map
          fun entry => line base entry.1 entry.2 := by
  fun_induction collect base offset skip count shown part with
  | case1 offset skip count shown => simp
  | case2 offset skip shown byte rest => simp
  | case3 offset shown byte rest i after count ih =>
    rw [ih, Program.sweepFrom_cons]
    simp [i, after]
  | case4 offset shown byte rest i after skip count hcount ih =>
    rw [ih, Program.sweepFrom_cons]
    simp [i, after]

/-- A window of an image that has any bytes shows a part of the sweep, line by line, and says
so where there is nothing to show. -/
theorem window_of_ne_nil (base : UInt16) (start count : Nat) (hne : image ≠ []) :
    window image base start count
      = if ((sweep image).drop start).take count = [] then ["END OF ROM"]
        else (((sweep image).drop start).take count).map fun entry => line base entry.1 entry.2 := by
  have hcollect := collect_eq base 0 start count [] image
  rw [List.reverse_nil, List.nil_append] at hcollect
  change _ = ((sweep image).drop start |>.take count).map _ at hcollect
  rw [window, if_neg (by simpa using hne), hcollect]
  rcases ((sweep image).drop start).take count with _ | ⟨entry, rest⟩
  · rfl
  · rfl

/-- A window that shows anything shows a part of the sweep, line by line. -/
theorem window_eq (base : UInt16) (start count : Nat)
    (hshown : ((sweep image).drop start).take count ≠ []) :
    window image base start count
      = (((sweep image).drop start).take count).map fun entry => line base entry.1 entry.2 := by
  have hne : image ≠ [] := by
    rintro rfl
    simp [sweep] at hshown
  rw [window_of_ne_nil base start count hne, if_neg hshown]

end Listing

/-! ### Emissions -/

/-- Something given to the assembler: an instruction to encode, or a byte as it stands. -/
inductive Emission where
  | coded (i : Instruction)
  | data (byte : UInt8)
deriving DecidableEq, Repr

/-- What an emission is listed as; a byte of data stands for itself. -/
def Emission.listed : Emission → Instruction
  | coded i => i
  | data byte => .unknown byte

namespace Assembler

variable (a : Assembler)

/-- Emits an instruction or a byte. -/
def put (a : Assembler) : Emission → Assembler
  | .coded i => a.emit i
  | .data byte => a.byte byte

/-- Emits instructions and bytes in order. -/
def putAll (a : Assembler) (emissions : List Emission) : Assembler := emissions.foldl put a

/-- A byte emitted as it stands is the instruction that it is listed as. -/
theorem put_eq_emit (e : Emission) : a.put e = a.emit e.listed := by
  cases e <;> rfl

theorem putAll_eq_emitAll (emissions : List Emission) :
    a.putAll emissions = a.emitAll (emissions.map Emission.listed) := by
  have hput : put = fun a e => a.emit e.listed := funext fun a => funext fun e => a.put_eq_emit e
  rw [putAll, emitAll, List.foldl_map, hput]

@[simp] theorem base_emitAll (program : List Instruction) : (a.emitAll program).base = a.base := by
  induction program generalizing a with
  | nil => rfl
  | cons i program ih => exact (ih (a.emit i)).trans (base_emit a i)

/-- The address reached goes round at 64 KiB. -/
theorem toNat_here : a.here.toNat = (a.base.toNat + a.size) % guestSpace := by
  rw [here, UInt16.toNat_add, UInt16.toNat_ofNat', Nat.add_mod_mod]
  rfl

@[simp] theorem base_start_putAll (base : UInt16) (emissions : List Emission) :
    ((start base).putAll emissions).base = base := by
  rw [putAll_eq_emitAll, base_emitAll]
  rfl

theorem image_start_putAll (base : UInt16) (emissions : List Emission) :
    ((start base).putAll emissions).image = encodeAll (emissions.map Emission.listed) := by
  rw [putAll_eq_emitAll, Program.image_start_emitAll]

/-- The address reached after the first emissions is that of the next one. -/
theorem here_start_putAll (base : UInt16) (emissions : List Emission) (index : Nat) :
    ((start base).putAll (emissions.take index)).here
      = base + UInt16.ofNat (Program.offset (emissions.map Emission.listed) index) := by
  have hsize : ((start base).putAll (emissions.take index)).bytes.size
      = Program.offset (emissions.map Emission.listed) index := by
    rw [← Program.length_encodeAll_take, ← List.map_take, ← image_start_putAll base]
    rfl
  rw [here, base_start_putAll, hsize]

end Assembler

/-- What is emitted is listed as canonical instructions if unknown bytes are unassigned. -/
theorem Emission.canonical_listed {emissions : List Emission}
    (hunknown : ∀ byte, .data byte ∈ emissions ∨ .coded (.unknown byte) ∈ emissions →
      Opcode.ofByte? byte = none) : ∀ i ∈ emissions.map Emission.listed, i.Canonical := by
  intro i hi
  obtain ⟨e, he, rfl⟩ := List.mem_map.1 hi
  cases e with
  | data byte => exact hunknown byte (.inl he)
  | coded i =>
    cases i with
    | unknown byte => exact hunknown byte (.inr he)
    | _ => trivial

open Program in
/-- **The assembler and the listing agree.**  Take anything emitted, unknown bytes unassigned.
The listing of the image, if enough lines are asked for, has one line for each emission, in
order: the address that the assembler had reached before it, and the text of the instruction.
After whatever has been emitted that address is the base address and the number of bytes so
far, modulo 64 KiB. -/
theorem window_of_emissions (base : UInt16) (emissions : List Emission) (count : Nat)
    (hne : emissions ≠ []) (hcount : emissions.length ≤ count)
    (hunknown : ∀ byte, .data byte ∈ emissions ∨ .coded (.unknown byte) ∈ emissions →
      Opcode.ofByte? byte = none) :
    let reached (index : Nat) := (Assembler.start base).putAll (emissions.take index)
    Listing.window ((Assembler.start base).putAll emissions).image base 0 count
        = emissions.mapIdx (fun index e =>
            hexWord (reached index).here ++ " " ++ e.listed.text) ∧
      ∀ emitted, ((Assembler.start base).putAll emitted).here.toNat
        = (base.toNat + ((Assembler.start base).putAll emitted).size) % guestSpace := by
  intro reached
  refine ⟨?_, fun emitted => ?_⟩
  -- the emissions are a program, and the window is its whole sweep
  · have hsweep : sweep ((Assembler.start base).putAll emissions).image
        = (emissions.map Emission.listed).mapIdx
            fun index i => (0 + offset (emissions.map Emission.listed) index, i) := by
      rw [Assembler.image_start_putAll]
      exact sweepFrom_encodeAll (Emission.canonical_listed hunknown) 0
    have hall : ((sweep ((Assembler.start base).putAll emissions).image).drop 0).take count
        = sweep ((Assembler.start base).putAll emissions).image := by
      rw [List.drop_zero, List.take_of_length_le]
      simpa [hsweep] using hcount
    have hshown : ((sweep ((Assembler.start base).putAll emissions).image).drop 0).take count
        ≠ [] := by
      rw [hall, hsweep]
      simpa using hne
    rw [Listing.window_eq base 0 count hshown, hall, hsweep]
    -- line by line, the offset in the sweep is the number of bytes so far
    refine List.ext_getElem? fun index => ?_
    have hhere := Assembler.here_start_putAll base emissions
    simp only [List.getElem?_map, List.getElem?_mapIdx, Option.map_map, reached, hhere,
      Nat.zero_add]
    rfl
  · rw [Assembler.toNat_here, Assembler.base_start_putAll]

/-- Three emissions at the end of the guest space, the second a byte of data. -/
def straddling : List Emission := [.coded (.loadImmediate 1), .data 0x42, .coded .halt]

theorem window_straddling : straddling ≠ [] ∧ straddling.length ≤ 5 ∧
    (∀ byte, .data byte ∈ straddling ∨ .coded (.unknown byte) ∈ straddling →
      Opcode.ofByte? byte = none) ∧
    Listing.window [0x01, 0x01, 0x42, 0xFF] 0xFFFE 0 5
      = ["FFFE LDA #01", "0000 DB 42", "0001 HALT"] := by
  have hunknown : ∀ byte, .data byte ∈ straddling ∨ .coded (.unknown byte) ∈ straddling →
      Opcode.ofByte? byte = none := by
    intro byte hbyte
    obtain rfl : byte = 0x42 := by simpa [straddling] using hbyte
    exact Opcode.ofByte?_eq_none_iff.2 (by decide)
  obtain ⟨hwindow, -⟩ := window_of_emissions 0xFFFE straddling 5 (by decide) (by decide) hunknown
  exact ⟨by decide, by decide, hunknown, hwindow⟩

end VirtualPC
