/-
VirtualPC/Proofs/Memory/History.lean

What RAM holds after any history of writes.  A write stores some bytes from an address on, and
a single byte is a write like a block of one, only refused for a reason of its own.  It is done
if its whole range lies inside RAM (`Write.Fits`, over unbounded integers) and refused
otherwise.  What can be read afterwards is told by the history alone:

    lastWritten size writes address = the byte of the last write done there, or zero

The equation between this and the cells (`Remembers`) holds of new RAM and is kept by every
write: one that is done covers its range and no more, and one that is refused leaves RAM as it
was.  Main result: `reads_of_writes`, with the bulk and word accesses in terms of single bytes.
-/
import VirtualPC.Proofs.Memory.Cells

namespace VirtualPC

/-- A write to RAM. -/
inductive Write where
  | byte (address : Nat) (value : UInt8)
  | block (start : Nat) (bytes : List UInt8)
deriving DecidableEq, Repr

namespace Write

/-- The first address a write is for. -/
def start : Write → Nat
  | byte address _ => address
  | block start _ => start

/-- The bytes a write stores from there on. -/
def bytes : Write → List UInt8
  | byte _ value => [value]
  | block _ bytes => bytes

/-- The range of a write lies inside RAM of the given size. -/
def Fits (size : Nat) (w : Write) : Prop := w.start + w.bytes.length ≤ size

instance (size : Nat) (w : Write) : Decidable (w.Fits size) :=
  inferInstanceAs (Decidable (_ ≤ _))

/-- Why RAM of the given size refuses a write that does not fit. -/
def refusal (size : Nat) : Write → MemoryError
  | byte address _ => .addressOutOfRange address size
  | block start bytes => .blockOverflow start bytes.length size

/-- What comes of a write to RAM of the given size. -/
def answer (size : Nat) (w : Write) : Except MemoryError Unit :=
  if w.Fits size then .ok () else .error (w.refusal size)

/-- The byte a write stores at an address, if it covers it. -/
def byteAt? (w : Write) (address : Nat) : Option UInt8 :=
  if w.start ≤ address then w.bytes[address - w.start]? else none

theorem byteAt?_eq (w : Write) (address : Nat) :
    w.byteAt? address = if w.start ≤ address ∧ address < w.start + w.bytes.length
      then w.bytes[address - w.start]? else none := by
  rw [byteAt?]
  by_cases hstart : w.start ≤ address
  · by_cases hend : address < w.start + w.bytes.length
    · rw [if_pos hstart, if_pos ⟨hstart, hend⟩]
    · rw [if_pos hstart, if_neg (fun h => hend h.2), List.getElem?_eq_none (by omega)]
  · rw [if_neg hstart, if_neg (fun h => hstart h.1)]

/-- A byte is written to its own address only. -/
theorem byteAt?_byte (address : Nat) (value : UInt8) (k : Nat) :
    (byte address value).byteAt? k = if k = address then some value else none := by
  rw [byteAt?_eq]
  show (if address ≤ k ∧ k < address + 1 then [value][k - address]? else none) = _
  by_cases hk : k = address
  · subst hk
    simp
  · rw [if_neg hk, if_neg (by omega)]

end Write

/-- The byte that writes to RAM of the given size leave at an address: that of the last of them
which fits and covers it, or zero. -/
def lastWritten (size : Nat) (writes : List Write) (address : Nat) : UInt8 :=
  ((writes.filter (Write.Fits size)).reverse.findSome? (Write.byteAt? · address)).getD 0

theorem lastWritten_append (size : Nat) (writes : List Write) (w : Write) (address : Nat) :
    lastWritten size (writes ++ [w]) address
      = if w.Fits size then (w.byteAt? address).getD (lastWritten size writes address)
        else lastWritten size writes address := by
  unfold lastWritten
  by_cases h : w.Fits size
  · rw [if_pos h]
    rcases hbyte : w.byteAt? address with _ | byte <;> simp [h, hbyte]
  · simp [h]

namespace Ram

variable {ram after : Ram} {size address start length : Nat} {byte : UInt8} {w : Write}
  {writes : List Write} {cause : MemoryError}

/-! ### One write -/

/-- RAM with a write done. -/
def carryOut (ram : Ram) : Write → Except MemoryError Ram
  | .byte address value => ram.write address value
  | .block start bytes => ram.writeBlock start bytes

/-- Does a write in place: what came of it, and the RAM it leaves. -/
def put (ram : Ram) : Write → Except MemoryError Unit × Ram
  | .byte address value =>
    match ram.write address value with
    | .ok after => (.ok (), after)
    | .error cause => (.error cause, ram)
  | .block start bytes => ram.storeBlock start bytes

/-- Done in place, a write leaves RAM with the write done, or if it is refused, as it was. -/
theorem put_eq (ram : Ram) (w : Write) :
    ram.put w = match ram.carryOut w with
      | .ok after => (.ok (), after)
      | .error cause => (.error cause, ram) := by
  cases w with
  | byte address value => rfl
  | block start bytes => exact storeBlock_eq ram start bytes

/-- A write that fits is done. -/
theorem exists_carryOut (h : w.Fits ram.size) : ∃ after, ram.carryOut w = .ok after := by
  cases w with
  | byte address value => exact exists_write value h
  | block start bytes => exact exists_writeBlock h

/-- A write that does not fit is refused. -/
theorem carryOut_of_not_fits (h : ¬ w.Fits ram.size) :
    ram.carryOut w = .error (w.refusal ram.size) := by
  cases w with
  | byte address value => exact write_of_size_le value (Nat.not_lt.1 h)
  | block start bytes => exact writeBlock_of_not_fits h

theorem size_carryOut (h : ram.carryOut w = .ok after) : after.size = ram.size := by
  cases w with
  | byte address value => exact size_write h
  | block start bytes => exact size_writeBlock h

/-- A write that is done sets the cells it covers and leaves every other cell alone. -/
theorem getElem?_carryOut (h : ram.carryOut w = .ok after) (k : Nat) :
    after.cells[k]? = (w.byteAt? k).or ram.cells[k]? := by
  cases w with
  | byte address value =>
    rw [getElem?_write h, Write.byteAt?_byte]
    by_cases hk : k = address
    · rw [if_pos hk, if_pos hk, Option.some_or]
    · rw [if_neg hk, if_neg hk, Option.none_or]
  | block start bytes =>
    rw [getElem?_writeBlock h, Write.byteAt?_eq]
    show _ = (if start ≤ k ∧ k < start + bytes.length then bytes[k - start]? else none).or _
    by_cases hk : start ≤ k ∧ k < start + bytes.length
    · rw [if_pos hk, if_pos hk, List.getElem?_eq_getElem (by omega), Option.some_or]
    · rw [if_neg hk, if_neg hk, Option.none_or]

/-! ### Histories of writes -/

/-- Does writes one after another: what came of each, and the RAM they leave. -/
def putAll (ram : Ram) : List Write → List (Except MemoryError Unit) × Ram
  | [] => ([], ram)
  | w :: rest =>
    let (answers, last) := (ram.put w).2.putAll rest
    ((ram.put w).1 :: answers, last)

/-- RAM of the given size holds, cell by cell, what writes have left there. -/
structure Remembers (ram : Ram) (size : Nat) (writes : List Write) : Prop where
  size_eq : ram.size = size
  cell : ∀ address < size, ram.cells[address]? = some (lastWritten size writes address)

/-- New RAM is what no writes leave. -/
theorem Remembers.of_zeroed (h : zeroed size = .ok ram) : Remembers ram size [] := by
  refine ⟨size_zeroed h, fun address haddress => ?_⟩
  rw [cells_zeroed h, Array.getElem?_replicate, if_pos haddress]
  rfl

/-- **Every write is remembered**, and the others with it. -/
theorem Remembers.put (h : Remembers ram size writes) (w : Write) :
    (ram.put w).1 = w.answer size ∧ Remembers (ram.put w).2 size (writes ++ [w]) := by
  rw [put_eq, Write.answer]
  by_cases hfits : w.Fits size
  · obtain ⟨after, hafter⟩ := exists_carryOut (h.size_eq.symm ▸ hfits)
    rw [hafter, if_pos hfits]
    refine ⟨rfl, (size_carryOut hafter).trans h.size_eq, fun address haddress => ?_⟩
    rw [getElem?_carryOut hafter, h.cell address haddress, lastWritten_append, if_pos hfits]
    cases w.byteAt? address <;> rfl
  · have hrefused := carryOut_of_not_fits (h.size_eq.symm ▸ hfits)
    rw [hrefused, if_neg hfits, h.size_eq]
    refine ⟨rfl, h.size_eq, fun address haddress => ?_⟩
    rw [h.cell address haddress, lastWritten_append, if_neg hfits]

theorem Remembers.putAll (h : Remembers ram size writes) (more : List Write) :
    (ram.putAll more).1 = more.map (Write.answer size) ∧
      Remembers (ram.putAll more).2 size (writes ++ more) := by
  induction more generalizing ram writes with
  | nil => exact ⟨rfl, (List.append_nil writes).symm ▸ h⟩
  | cons w rest ih =>
    obtain ⟨hanswer, hnext⟩ := h.put w
    obtain ⟨hanswers, hlast⟩ := ih hnext
    rw [List.append_assoc] at hlast
    refine ⟨?_, hlast⟩
    show (ram.put w).1 :: ((ram.put w).2.putAll rest).1 = _
    rw [hanswer, hanswers, List.map_cons]

/-- After writes that fit, a cell holds what the last of them has written there, or what it held
before. -/
theorem getElem?_putAll (h : ∀ w ∈ writes, w.Fits ram.size) (k : Nat) :
    (ram.putAll writes).2.cells[k]?
      = (writes.reverse.findSome? (Write.byteAt? · k)).or ram.cells[k]? := by
  induction writes generalizing ram with
  | nil => rfl
  | cons w rest ih =>
    obtain ⟨after, hafter⟩ := exists_carryOut (h w List.mem_cons_self)
    have hput : (ram.put w).2 = after := by rw [put_eq, hafter]
    have hrest : ∀ w' ∈ rest, w'.Fits after.size := by
      intro w' hw'
      rw [size_carryOut hafter]
      exact h w' (List.mem_cons_of_mem w hw')
    show ((ram.put w).2.putAll rest).2.cells[k]? = _
    rw [hput, ih hrest, getElem?_carryOut hafter, List.reverse_cons, List.findSome?_append,
      List.findSome?_singleton, Option.or_assoc]

/-! ### Reads -/

/-- A byte that is remembered can be read. -/
theorem Remembers.read (h : Remembers ram size writes) (address : Nat) :
    ram.read address = if address < size then .ok (lastWritten size writes address)
      else .error (.addressOutOfRange address size) := by
  by_cases haddress : address < size
  · rw [if_pos haddress]
    exact read_eq_ok_iff.2 (h.cell address haddress)
  · rw [if_neg haddress, ← h.size_eq]
    exact read_of_size_le (h.size_eq.symm ▸ Nat.not_lt.1 haddress)

/-- Inside RAM the bytes of a block can be read one by one. -/
theorem mapM_read (h : start + length ≤ ram.size) :
    (List.range' start length).mapM ram.read
      = .ok (ram.cells.extract start (start + length)).toList := by
  induction length generalizing start with
  | zero => simp [pure, Except.pure]
  | succ length ih =>
    have hstart : start < ram.cells.size := by
      show start < ram.size
      omega
    have hhead : ram.read start = .ok ram.cells[start] :=
      read_eq_ok_iff.2 (Array.getElem?_eq_getElem hstart)
    have htail := @ih (start + 1) (by omega)
    rw [List.range'_succ, List.mapM_cons, hhead, htail, Array.toList_extract,
      Array.toList_extract, List.extract_eq_take_drop, List.extract_eq_take_drop,
      List.drop_eq_getElem_cons (i := start) (by simpa using hstart)]
    rw [show start + (length + 1) - start = length + 1 by omega,
      show start + 1 + length - (start + 1) = length by omega, List.take_succ_cons]
    rfl

/-- A block is read as its bytes are, if its range lies inside RAM. -/
theorem readBlock_eq (ram : Ram) (start length : Nat) :
    ram.readBlock start length = if start + length ≤ ram.size
      then (List.range' start length).mapM ram.read
      else .error (.blockOverflow start length ram.size) := by
  by_cases h : start + length ≤ ram.size
  · rw [if_pos h, readBlock_of_fits h, mapM_read h]
  · rw [if_neg h]
    exact if_neg h

/-- A word is read if both of its bytes are. -/
theorem readWord_eq_ok_iff {word : UInt16} :
    ram.readWord address = .ok word ↔
      ∃ high low, ram.read address = .ok high ∧ ram.read (address + 1) = .ok low ∧
        word.toNat = high.toNat * 256 + low.toNat := by
  unfold readWord
  rcases ram.read address with cause | high
  · simp [bind, Except.bind]
  rcases ram.read (address + 1) with cause | low
  · simp [bind, Except.bind]
  · simp [bind, Except.bind, pure, Except.pure, ← toNat_wordOfBytes, UInt16.toNat_inj, eq_comm]

/-- A word that cannot be read fails as the first of its bytes that cannot be. -/
theorem readWord_eq_error_iff :
    ram.readWord address = .error cause ↔ ram.read address = .error cause ∨
      (∃ high, ram.read address = .ok high) ∧ ram.read (address + 1) = .error cause := by
  unfold readWord
  rcases ram.read address with failure | high
  · simp [bind, Except.bind]
  rcases ram.read (address + 1) with failure | low
  · simp [bind, Except.bind]
  · simp [bind, Except.bind, pure, Except.pure]

/-! ### Memory -/

/-- A block that is written is written as its bytes are, one by one. -/
theorem storeBytes_of_writeBlock {block : List UInt8}
    (h : ram.writeBlock start block = .ok after) :
    ram.storeBytes start block = (.ok (), after) := by
  have hstore := storeBlock_eq ram start block
  rw [h, storeBlock, if_pos (fits_of_writeBlock h)] at hstore
  exact hstore

/-- **RAM is a faithful bounded memory.**  Of any writes to new RAM, those are refused whose
range does not lie inside it, over unbounded integers; a refused one changes nothing, and RAM
keeps its size.  After them a byte that is read is that of the last write done there, or zero.
A block is read as its bytes are and a word as its two, high byte first, each failing where
the bytes do or, for a block, where its range leaves RAM; and a block is written as its bytes
are, one by one. -/
theorem reads_of_writes (size : Nat) (ram : Ram) (hram : zeroed size = .ok ram)
    (writes : List Write) :
    let last := (ram.putAll writes).2
    last.size = size ∧
    (ram.putAll writes).1 = writes.map (Write.answer size) ∧
    (∀ w after, last.carryOut w = .ok after ↔ last.put w = (.ok (), after)) ∧
    (∀ w cause, (last.put w).1 = .error cause → (last.put w).2 = last) ∧
    (∀ address, last.read address = if address < size
      then .ok (lastWritten size writes address)
      else .error (.addressOutOfRange address size)) ∧
    (∀ start length, last.readBlock start length = if start + length ≤ size
      then (List.range' start length).mapM last.read
      else .error (.blockOverflow start length size)) ∧
    (∀ address word, last.readWord address = .ok word ↔
      ∃ high low, last.read address = .ok high ∧ last.read (address + 1) = .ok low ∧
        word.toNat = high.toNat * 256 + low.toNat) ∧
    (∀ address cause, last.readWord address = .error cause ↔
      last.read address = .error cause ∨
        (∃ high, last.read address = .ok high) ∧ last.read (address + 1) = .error cause) ∧
    ∀ start block after, last.writeBlock start block = .ok after →
      last.storeBytes start block = (.ok (), after) := by
  intro last
  obtain ⟨hanswers, hlast⟩ := (Remembers.of_zeroed hram).putAll writes
  have hsize : last.size = size := hlast.size_eq
  refine ⟨hsize, hanswers, ?_, ?_, hlast.read, ?_, fun _ _ => readWord_eq_ok_iff,
    fun _ _ => readWord_eq_error_iff, fun _ _ _ => storeBytes_of_writeBlock⟩
  · intro w after
    rw [put_eq]
    rcases last.carryOut w with cause | next <;> simp
  · intro w cause hrefused
    rw [put_eq] at hrefused ⊢
    rcases h : last.carryOut w with failure | next
    · rfl
    · rw [h] at hrefused
      cases hrefused
  · intro start length
    rw [readBlock_eq, hsize]

/-- Writes to four cells: two that overlap, some that are refused, and two empty blocks, one of
them past the end. -/
def overlapping : List Write :=
  [.block 1 [1, 2, 3], .byte 4 9, .byte 2 7, .block 3 [8, 8], .block 0xFFFFFFFFFFFFFFFF [5, 5],
    .block 4 [], .block 5 []]

theorem overlapping_read_back : ∃ ram, zeroed 4 = .ok ram ∧
    (ram.putAll overlapping).1.map Except.isOk = [true, false, true, false, false, true, false] ∧
    (ram.putAll overlapping).2.readBlock 0 4 = .ok [0, 1, 7, 3] ∧
    (ram.putAll overlapping).2.readWord 2 = .ok 0x0703 ∧
    (ram.putAll overlapping).2.readWord 3 = .error (.addressOutOfRange 4 4) := by
  obtain ⟨ram, hram⟩ : ∃ ram, zeroed 4 = .ok ram := ⟨_, rfl⟩
  obtain ⟨-, hanswers, -, -, hread, hblock, hword, hfails, -⟩ :=
    reads_of_writes 4 ram hram overlapping
  refine ⟨ram, hram, ?_, ?_, (hword 2 _).2 ⟨7, 3, ?_, ?_, rfl⟩, (hfails 3 _).2 (.inr ⟨⟨3, ?_⟩, ?_⟩)⟩
  · rw [hanswers]
    decide
  · rw [hblock, funext hread]
    rfl
  · exact hread 2
  · exact hread 3
  · exact hread 3
  · exact hread 4

end Ram

end VirtualPC
