/-
VirtualPC/Proofs/Memory/Cells.lean

RAM seen through its cells.  Each access is described by two facts: when it succeeds, which
is a comparison with the size over unbounded integers, and what a look-up in the cells gives
afterwards.  A write changes the cells of its range and no other:

    after.cells[k]? = if k is in the range then the byte written there else ram.cells[k]?

Later proofs about RAM go by these equations and never unfold an access.

A block is stored byte by byte, and a byte may be refused; the check of its whole range comes
first, so that none of them is (`storeBlock_eq`).
-/
import VirtualPC.Memory

namespace VirtualPC.Ram

variable {ram after : Ram} {address start length : Nat} {byte : UInt8} {block : List UInt8}

/-! ### New RAM -/

/-- New RAM is zero throughout. -/
theorem cells_zeroed {size : Nat} (h : zeroed size = .ok ram) :
    ram.cells = Array.replicate size 0 := by
  unfold zeroed at h
  split at h
  · cases h
    rfl
  · cases h

theorem size_zeroed {size : Nat} (h : zeroed size = .ok ram) : ram.size = size := by
  rw [Ram.size, cells_zeroed h, Array.size_replicate]

/-! ### Single bytes -/

theorem getElem?_isSome (h : address < ram.size) : ∃ byte, ram.cells[address]? = some byte :=
  ⟨ram.cells[address], Array.getElem?_eq_getElem h⟩

theorem exists_write (byte : UInt8) (h : address < ram.size) :
    ∃ after, ram.write address byte = .ok after :=
  ⟨_, dif_pos h⟩

/-- Outside RAM there is nothing to read. -/
theorem read_of_size_le (h : ram.size ≤ address) :
    ram.read address = .error (.addressOutOfRange address ram.size) :=
  dif_neg (Nat.not_lt.2 h)

/-- Outside RAM there is nothing to write to. -/
theorem write_of_size_le (byte : UInt8) (h : ram.size ≤ address) :
    ram.write address byte = .error (.addressOutOfRange address ram.size) :=
  dif_neg (Nat.not_lt.2 h)

theorem lt_size_of_write (h : ram.write address byte = .ok after) : address < ram.size := by
  unfold write at h
  split at h
  · assumption
  · cases h

/-- A write sets the cell of its address and leaves every other cell alone. -/
theorem getElem?_write (h : ram.write address byte = .ok after) (k : Nat) :
    after.cells[k]? = if k = address then some byte else ram.cells[k]? := by
  have hlt : address < ram.cells.size := lt_size_of_write h
  unfold write at h
  rw [dif_pos hlt] at h
  cases h
  rw [Array.getElem?_set]
  by_cases hk : k = address
  · rw [if_pos hk, if_pos hk.symm]
  · rw [if_neg hk, if_neg (Ne.symm hk)]

/-! ### Patches -/

/-- `after` is `before` with `value 0`, `value 1`, ... in `count` cells from `start` on, and every
other cell as it was. -/
structure Patched (before : Ram) (start count : Nat) (value : Nat → UInt8) (after : Ram) :
    Prop where
  size : after.size = before.size
  cells : ∀ k, after.cells[k]?
    = if start ≤ k ∧ k < start + count then some (value (k - start)) else before.cells[k]?

namespace Patched

variable {before mid : Ram} {count : Nat} {value : Nat → UInt8}

theorem nil (ram : Ram) (start : Nat) (value : Nat → UInt8) : Patched ram start 0 value ram where
  size := rfl
  cells k := (if_neg (by omega)).symm

/-- A write behind the patch makes it longer. -/
theorem snoc (h : Patched before start count value mid)
    (hwrite : mid.write (start + count) (value count) = .ok after) :
    Patched before start (count + 1) value after where
  size := (size_write hwrite).trans h.size
  cells := by
    intro k
    rw [getElem?_write hwrite, h.cells k]
    by_cases hk : k = start + count
    · subst hk
      rw [if_pos rfl, if_pos (by omega), Nat.add_sub_cancel_left]
    · rw [if_neg hk]
      by_cases hin : start ≤ k ∧ k < start + count
      · rw [if_pos hin, if_pos (by omega)]
      · rw [if_neg hin, if_neg (by omega)]

/-- A single cell with the byte that it holds. -/
theorem of_cell (h : ram.cells[address]? = some byte) :
    Patched ram address 1 (fun _ => byte) ram where
  size := rfl
  cells := by
    intro k
    by_cases hk : address ≤ k ∧ k < address + 1
    · obtain rfl : k = address := by omega
      rw [if_pos hk, h]
    · rw [if_neg hk]

/-- A single cell written once more. -/
theorem overwrite (h : Patched before address 1 value mid)
    (hwrite : mid.write address byte = .ok after) :
    Patched before address 1 (fun _ => byte) after where
  size := (size_write hwrite).trans h.size
  cells := by
    intro k
    rw [getElem?_write hwrite, h.cells k]
    by_cases hk : k = address
    · rw [if_pos hk, if_pos (by omega)]
    · rw [if_neg hk, if_neg (by omega), if_neg (by omega)]

/-- A patch leaves RAM its cells. -/
theorem lt_size (h : Patched before start count value after) {k : Nat}
    (hk : before.cells[k]? = some byte) : k < after.size := by
  rw [h.size]
  exact (Array.getElem?_eq_some_iff.1 hk).1

/-- The byte of a patched cell. -/
theorem getElem?_one (h : Patched before address 1 (fun _ => byte) after) :
    after.cells[address]? = some byte := by
  rw [h.cells, if_pos (by omega)]

end Patched

/-! ### Blocks -/

/-- Storing a block sets the cells it covers, as far as there are any. -/
theorem getElem?_storeFrom (cells : Array UInt8) (start : Nat) (block : List UInt8) (k : Nat)
    (hfits : start + block.length ≤ cells.size) :
    (storeFrom cells start block)[k]?
      = if start ≤ k ∧ k < start + block.length then block[k - start]? else cells[k]? := by
  induction block generalizing cells start with
  | nil =>
    rw [if_neg (by simp only [List.length_nil]; omega)]
    rfl
  | cons byte rest ih =>
    rw [List.length_cons] at hfits
    rw [storeFrom, ih _ _ (by rw [Array.size_setIfInBounds]; omega), List.length_cons]
    by_cases hk : k = start
    -- the head of the block; the rest is stored behind it
    · subst hk
      rw [if_neg (by omega), if_pos (by omega), Nat.sub_self,
        Array.getElem?_setIfInBounds_self_of_lt (by omega)]
      rfl
    · rw [Array.getElem?_setIfInBounds_ne (Ne.symm hk)]
      by_cases hin : start + 1 ≤ k ∧ k < start + 1 + rest.length
      · rw [if_pos hin, if_pos (by omega), show k - start = k - (start + 1) + 1 by omega]
        rfl
      · rw [if_neg hin, if_neg (by omega)]

theorem exists_writeBlock (h : start + block.length ≤ ram.size) :
    ∃ after, ram.writeBlock start block = .ok after :=
  ⟨_, if_pos h⟩

theorem fits_of_writeBlock (h : ram.writeBlock start block = .ok after) :
    start + block.length ≤ ram.size := by
  unfold writeBlock at h
  split at h
  · assumption
  · cases h

/-- A block write sets the cells of its range and leaves every other cell alone. -/
theorem getElem?_writeBlock (h : ram.writeBlock start block = .ok after) (k : Nat) :
    after.cells[k]?
      = if start ≤ k ∧ k < start + block.length then block[k - start]? else ram.cells[k]? := by
  have hfits : start + block.length ≤ ram.cells.size := fits_of_writeBlock h
  unfold writeBlock at h
  rw [if_pos hfits] at h
  cases h
  exact getElem?_storeFrom _ _ _ _ hfits

/-- A block outside RAM is refused as a whole. -/
theorem writeBlock_of_not_fits (h : ¬ start + block.length ≤ ram.size) :
    ram.writeBlock start block = .error (.blockOverflow start block.length ram.size) :=
  if_neg h

/-- A block inside RAM can be read, and is the run of cells of its range. -/
theorem readBlock_of_fits (h : start + length ≤ ram.size) :
    ram.readBlock start length = .ok (ram.cells.extract start (start + length)).toList :=
  if_pos h

theorem fits_of_readBlock (h : ram.readBlock start length = .ok block) :
    start + length ≤ ram.size := by
  unfold readBlock at h
  split at h
  · assumption
  · cases h

/-- A block that was read is as long as was asked for. -/
theorem length_of_readBlock (h : ram.readBlock start length = .ok block) :
    block.length = length := by
  have hfits : start + length ≤ ram.cells.size := fits_of_readBlock h
  rw [readBlock_of_fits hfits] at h
  cases h
  rw [Array.length_toList, Array.size_extract]
  omega

/-- What was written as a block is read back as that block. -/
theorem readBlock_writeBlock (h : ram.writeBlock start block = .ok after) :
    after.readBlock start block.length = .ok block := by
  have hfits : start + block.length ≤ after.size := by
    rw [size_writeBlock h]
    exact fits_of_writeBlock h
  have hread := readBlock_of_fits hfits
  have hlength := length_of_readBlock hread
  rw [hread]
  refine congrArg Except.ok (List.ext_getElem? fun k => ?_)
  rcases Nat.lt_or_ge k block.length with hk | hk
  · have hcell := getElem?_writeBlock h (start + k)
    rw [if_pos (by omega), Nat.add_sub_cancel_left] at hcell
    rw [Array.getElem?_toList, Array.getElem?_extract, hcell]
    exact if_pos (by unfold size at hfits; omega)
  · rw [List.getElem?_eq_none (by omega), List.getElem?_eq_none hk]

/-! ### Blocks in place -/

/-- Stores bytes one after another, each with its own check.  The first that falls outside
ends it, and those before it stay stored. -/
def storeBytes (ram : Ram) (start : Nat) : List UInt8 → Except MemoryError Unit × Ram
  | [] => (.ok (), ram)
  | byte :: rest =>
    match ram.write start byte with
    | .ok next => next.storeBytes (start + 1) rest
    | .error cause => (.error cause, ram)

/-- Stores a block in place: its range is checked, then its bytes are stored. -/
def storeBlock (ram : Ram) (start : Nat) (block : List UInt8) : Except MemoryError Unit × Ram :=
  if start + block.length ≤ ram.size then ram.storeBytes start block
  else (.error (.blockOverflow start block.length ram.size), ram)

theorem cells_write (h : ram.write address byte = .ok after) :
    after.cells = ram.cells.setIfInBounds address byte := by
  have hlt : address < ram.cells.size := lt_size_of_write h
  refine Array.ext_getElem? fun k => ?_
  rw [getElem?_write h, Array.getElem?_setIfInBounds]
  by_cases hk : k = address
  · rw [if_pos hk, if_pos hk.symm, if_pos hlt]
  · rw [if_neg hk, if_neg (Ne.symm hk)]

/-- Inside RAM no byte of a block is refused. -/
theorem storeBytes_of_fits (h : start + block.length ≤ ram.size) :
    ∃ after, ram.storeBytes start block = (.ok (), after) ∧
      after.cells = storeFrom ram.cells start block := by
  induction block generalizing ram start with
  | nil => exact ⟨ram, rfl, rfl⟩
  | cons byte rest ih =>
    rw [List.length_cons] at h
    obtain ⟨next, hnext⟩ := exists_write byte (show start < ram.size by omega)
    obtain ⟨after, hafter, hcells⟩ := @ih next (start + 1) (by rw [size_write hnext]; omega)
    refine ⟨after, ?_, ?_⟩
    · simp only [storeBytes, hnext]
      exact hafter
    · rw [hcells, cells_write hnext]
      rfl

/-- **A block stored in place is stored as a whole or not at all.** -/
theorem storeBlock_eq (ram : Ram) (start : Nat) (block : List UInt8) :
    ram.storeBlock start block = match ram.writeBlock start block with
      | .ok after => (.ok (), after)
      | .error cause => (.error cause, ram) := by
  by_cases h : start + block.length ≤ ram.size
  · obtain ⟨⟨cells, hpos⟩, hstore, hcells⟩ := storeBytes_of_fits h
    obtain rfl : cells = storeFrom ram.cells start block := hcells
    have hwrite : ram.writeBlock start block = .ok ⟨storeFrom ram.cells start block, hpos⟩ :=
      if_pos h
    rw [storeBlock, if_pos h, hstore, hwrite]
  · rw [storeBlock, if_neg h, writeBlock_of_not_fits h]

end VirtualPC.Ram
