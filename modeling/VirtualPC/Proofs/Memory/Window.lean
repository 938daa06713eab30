/-
VirtualPC/Proofs/Memory/Window.lean

Dumps as windows on RAM that goes round.  Every address reaches a cell, the one at its remainder
by the size (`read_mod_size`), and a dump line shows the cells that its addresses reach.  From
line to line a dump keeps the remainder of the address only, and within a line it reduces once
more for each byte; nothing is lost by that, since what an address reaches depends on its
remainder alone (`cyclicRead_mod_add`).

`checkedDump` is the dump in 64 bits, with every sum, remainder and access checked.

Main result: a dump has the lines asked for, each a closed form in its number over unbounded
integers, and in 64 bits it comes out the same wherever the size and the width of a line fit
together (`dump_cyclic`).
-/
import VirtualPC.Memory.Dump
import VirtualPC.Proofs.Text.Digits
import VirtualPC.Proofs.Word.Checked

namespace VirtualPC.Ram

open Text

variable {ram : Ram} {start count width address column i : Nat}

/-! ### Cyclic reads -/

/-- Every address reaches the cell at its remainder. -/
theorem read_mod_size (ram : Ram) (address : Nat) :
    ram.read (address % ram.size) = .ok (ram.cyclicRead address) :=
  dif_pos (Nat.mod_lt address ram.size_pos)

theorem cyclicRead_mod_add (ram : Ram) (address column : Nat) :
    ram.cyclicRead (address % ram.size + column) = ram.cyclicRead (address + column) := by
  have hreached := ram.read_mod_size (address % ram.size + column)
  rw [Nat.mod_add_mod, read_mod_size] at hreached
  exact (Except.ok.inj hreached).symm

/-! ### Lines -/

/-- Appending texts one after another is appending them in one. -/
theorem foldl_append_eq_join (init : String) (texts : List String) :
    texts.foldl (fun line text => line ++ text) init = init ++ String.join texts := by
  induction texts generalizing init with
  | nil => simp
  | cons text rest ih => rw [List.foldl_cons, ih, String.join_cons, String.append_assoc]

/-- A dump line shows the bytes that its addresses reach. -/
theorem dumpLine_eq (ram : Ram) (address width : Nat) :
    ram.dumpLine address width
      = upperHex 4 (address % 65536) ++ ":" ++ String.join ((List.range width).map fun column =>
          " " ++ upperHex 2 (ram.cyclicRead (address + column)).toNat) := by
  rw [← foldl_append_eq_join, List.foldl_map, dumpLine, hexWord_eq, UInt16.toNat_ofNat']
  simp only [hexByte_eq, String.append_assoc]

/-- The lines of a dump are a width apart. -/
theorem dumpFrom_eq (ram : Ram) (width count : Nat) (haddress : address < ram.size) :
    ram.dumpFrom width count address
      = (List.range count).map fun i => ram.dumpLine ((address + i * width) % ram.size) width := by
  induction count generalizing address with
  | zero => rfl
  | succ count ih =>
    rw [dumpFrom, ih (Nat.mod_lt _ ram.size_pos), List.range_succ_eq_map, List.map_cons,
      List.map_map, Nat.zero_mul, Nat.add_zero, Nat.mod_eq_of_lt haddress]
    simp only [Nat.mod_add_mod, Function.comp_def, Nat.succ_mul, Nat.add_assoc,
      Nat.add_comm width]

/-! ### Dumps in 64 bits -/

/-- A dump line in 64 bits. -/
def checkedLine (ram : Ram) (address width : Nat) : Except Trap String :=
  (List.range width).foldlM (fun line column => do
      let index ← Checked.mod (← Checked.add address column) ram.size
      return line ++ " " ++ hexByte (← Checked.read ram.cells index))
    (hexWord (UInt16.ofNat address) ++ ":")

/-- Dump lines in 64 bits. -/
def checkedDumpFrom (ram : Ram) (width : Nat) : (count address : Nat) → Except Trap (List String)
  | 0, _ => return []
  | count + 1, address => do
    let line ← ram.checkedLine address width
    let next ← Checked.mod (← Checked.add address width) ram.size
    return line :: (← ram.checkedDumpFrom width count next)

/-- The hex dump that starts at `start`, in 64 bits. -/
def checkedDump (ram : Ram) (start count width : Nat) : Except Trap (List String) := do
  ram.checkedDumpFrom width count (← Checked.mod start ram.size)

/-- RAM has a cell, so addresses have remainders. -/
theorem mod_size_eq_ok (ram : Ram) (address : Nat) :
    Checked.mod address ram.size = .ok (address % ram.size) :=
  Checked.mod_eq_ok ram.size_pos

theorem checkedLine_eq_ok (hfits : address + width ≤ sizeLimit) :
    ram.checkedLine address width = .ok (ram.dumpLine address width) := by
  refine Checked.foldlM_eq_ok (fun _ => True) trivial fun line _ column hcolumn => ?_
  have hcolumn : column < width := List.mem_range.1 hcolumn
  have hcell : (address + column) % ram.size < ram.cells.size := Nat.mod_lt _ ram.size_pos
  rw [Checked.add_eq_ok (by omega), Checked.ok_bind, mod_size_eq_ok,
    Checked.ok_bind, Checked.read_eq_ok hcell]
  exact ⟨rfl, trivial⟩

theorem checkedDumpFrom_eq_ok (hfits : ram.size + width ≤ sizeLimit)
    (haddress : address < ram.size) :
    ram.checkedDumpFrom width count address = .ok (ram.dumpFrom width count address) := by
  induction count generalizing address with
  | zero => rfl
  | succ count ih =>
    rw [checkedDumpFrom, checkedLine_eq_ok (by omega), Checked.ok_bind,
      Checked.add_eq_ok (by omega), Checked.ok_bind, mod_size_eq_ok,
      Checked.ok_bind, ih (Nat.mod_lt _ ram.size_pos)]
    rfl

/-- **A dump reads RAM in a circle.**  It has as many lines as are asked for.  Line `i` is the
value of `(start + i * width) % ram.size` modulo 64 KiB in four digits and a colon, and for each
column a space and the byte at the address `start + i * width + column` in two digits, where an
address reaches the cell at its remainder by the size of RAM.  All this is over unbounded
integers; in 64 bits no sum overflows and no access falls outside RAM, wherever the size of RAM
and the width of a line fit into 64 bits together, and the dump is the same. -/
theorem dump_cyclic (ram : Ram) (start count width : Nat)
    (hfits : ram.size + width ≤ sizeLimit) :
    ram.checkedDump start count width = .ok (ram.dump start count width) ∧
    (ram.dump start count width).length = count ∧
    (∀ address, ram.read (address % ram.size) = .ok (ram.cyclicRead address)) ∧
    ram.dump start count width = (List.range count).map fun i =>
      upperHex 4 ((start + i * width) % ram.size % 65536) ++ ":" ++
        String.join ((List.range width).map fun column =>
          " " ++ upperHex 2 (ram.cyclicRead (start + i * width + column)).toNat) := by
  have hstart : start % ram.size < ram.size := Nat.mod_lt start ram.size_pos
  have hlines : ram.dump start count width = (List.range count).map fun i =>
      ram.dumpLine ((start + i * width) % ram.size) width := by
    rw [dump, dumpFrom_eq ram width count hstart]
    simp only [Nat.mod_add_mod]
  refine ⟨?_, ?_, ram.read_mod_size, ?_⟩
  · rw [checkedDump, mod_size_eq_ok]
    exact checkedDumpFrom_eq_ok hfits hstart
  · rw [hlines, List.length_map, List.length_range]
  · rw [hlines]
    simp only [dumpLine_eq, cyclicRead_mod_add]

/-- Six cells, read in lines that are wider, from the last address that there is. -/
def sixCells : Ram := ⟨#[1, 2, 3, 4, 5, 6], by decide⟩

theorem dump_sixCells : sixCells.size + 8 ≤ sizeLimit ∧
    sixCells.dump (sizeLimit - 1) 2 8
      = ["0003: 04 05 06 01 02 03 04 05", "0005: 06 01 02 03 04 05 06 01"] := by
  have hfits : sixCells.size + 8 ≤ sizeLimit := by decide
  obtain ⟨-, -, -, hlines⟩ := dump_cyclic sixCells (sizeLimit - 1) 2 8 hfits
  refine ⟨hfits, ?_⟩
  rw [hlines]
  cbv

end VirtualPC.Ram
