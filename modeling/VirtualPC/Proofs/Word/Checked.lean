/-
VirtualPC/Proofs/Word/Checked.lean

Arithmetic of 64 bits that stops where a result does not fit.  The rules of this library are
stated over unbounded integers and over buffers that answer at any index.  A machine has
neither: it adds and multiplies in 64 bits, with a sign or without, and a cell is there or it is
not.  Here is each such operation with the `Trap` it ends in,

    Checked.add a b, Checked.mul a b, Checked.mod a b          sizes
    Checked.addSigned m n, Checked.subSigned m n               signed numbers
    Checked.read cells index, Checked.write cells index byte   cells of a buffer

so that a rule can be carried out in them as well, and compared.  Conversions never trap: a
size read as a signed number is itself below half the limit, and never more than itself
(`signed_of_lt`, `signed_le`).
-/
import VirtualPC.Word

namespace VirtualPC

/-- Why a computation in 64 bits stopped. -/
inductive Trap where
  /-- A result that 64 bits do not hold. -/
  | overflow
  /-- A remainder by zero. -/
  | zeroDivisor
  /-- A cell, or a run of cells, that does not lie in its buffer. -/
  | outOfBounds
deriving DecidableEq, Repr

/-- One more than the largest signed number of 64 bits. -/
def signedLimit : Nat := 0x8000000000000000

namespace Checked

/-! ### Sizes -/

/-- The sum of two sizes. -/
def add (a b : Nat) : Except Trap Nat :=
  if a + b < sizeLimit then .ok (a + b) else .error .overflow

/-- The product of two sizes. -/
def mul (a b : Nat) : Except Trap Nat :=
  if a * b < sizeLimit then .ok (a * b) else .error .overflow

/-- The remainder of two sizes. -/
def mod (a b : Nat) : Except Trap Nat :=
  if b = 0 then .error .zeroDivisor else .ok (a % b)

variable {a b : Nat}

theorem add_eq_ok (h : a + b < sizeLimit) : add a b = .ok (a + b) := if_pos h

theorem mul_eq_ok (h : a * b < sizeLimit) : mul a b = .ok (a * b) := if_pos h

theorem mod_eq_ok (h : 0 < b) : mod a b = .ok (a % b) := if_neg (Nat.ne_of_gt h)

/-! ### Signed numbers -/

/-- A number is a signed number of 64 bits. -/
def IsSigned (n : Int) : Prop := -0x8000000000000000 ≤ n ∧ n < 0x8000000000000000

instance (n : Int) : Decidable (IsSigned n) := inferInstanceAs (Decidable (_ ∧ _))

/-- The sum of two signed numbers. -/
def addSigned (m n : Int) : Except Trap Int :=
  if IsSigned (m + n) then .ok (m + n) else .error .overflow

/-- The difference of two signed numbers. -/
def subSigned (m n : Int) : Except Trap Int :=
  if IsSigned (m - n) then .ok (m - n) else .error .overflow

/-- A size read as a signed number: the upper half of the sizes is negative. -/
def signed (size : Nat) : Int := Int.bmod size sizeLimit

/-- A signed number read as a size: negative numbers are in the upper half. -/
def unsigned (n : Int) : Nat := (n % sizeLimit).toNat

variable {m n : Int} {size : Nat}

theorem addSigned_eq_ok (h : IsSigned (m + n)) : addSigned m n = .ok (m + n) := if_pos h

theorem subSigned_eq_ok (h : IsSigned (m - n)) : subSigned m n = .ok (m - n) := if_pos h

theorem signed_of_lt (h : size < signedLimit) : signed size = size := by
  refine Int.bmod_eq_of_le ?_ ?_
  · rw [sizeLimit]
    omega
  · rw [signedLimit] at h
    rw [sizeLimit]
    omega

theorem signed_le (size : Nat) : signed size ≤ size := by
  have hmod : (size : Int) % sizeLimit ≤ size := by
    rw [← Int.natCast_emod]
    exact Int.ofNat_le.2 (Nat.mod_le size sizeLimit)
  rw [signed, Int.bmod]
  split
  · exact hmod
  · omega

theorem unsigned_of_nonneg (hlow : 0 ≤ n) (hhigh : n < signedLimit) : unsigned n = n.toNat := by
  rw [signedLimit] at hhigh
  rw [unsigned, sizeLimit, Int.emod_eq_of_lt hlow (by omega)]

/-! ### Cells -/

/-- The cell of a buffer at an index. -/
def read (cells : Array UInt8) (index : Nat) : Except Trap UInt8 :=
  if h : index < cells.size then .ok cells[index] else .error .outOfBounds

/-- A buffer with the cell at an index set. -/
def write (cells : Array UInt8) (index : Nat) (byte : UInt8) : Except Trap (Array UInt8) :=
  if h : index < cells.size then .ok (cells.set index byte) else .error .outOfBounds

variable {cells : Array UInt8} {index : Nat}

theorem read_eq_ok (h : index < cells.size) : read cells index = .ok cells[index] := dif_pos h

theorem write_eq_ok (h : index < cells.size) (byte : UInt8) :
    write cells index byte = .ok (cells.setIfInBounds index byte) := by
  rw [write, dif_pos h, Array.setIfInBounds, dif_pos h]

/-! ### Sequences and loops -/

theorem ok_bind {α β : Type} (a : α) (f : α → Except Trap β) : (Except.ok a >>= f) = f a := rfl

/-- A loop whose every pass succeeds, from what the passes before it keep, succeeds. -/
theorem foldlM_eq_ok {α β : Type} {f : β → α → Except Trap β} {g : β → α → β}
    (keeps : β → Prop) {passes : List α} {init : β} (hinit : keeps init)
    (hpass : ∀ b, keeps b → ∀ a ∈ passes, f b a = .ok (g b a) ∧ keeps (g b a)) :
    passes.foldlM f init = .ok (passes.foldl g init) := by
  induction passes generalizing init with
  | nil => rfl
  | cons a rest ih =>
    obtain ⟨hok, hkeeps⟩ := hpass init hinit a List.mem_cons_self
    rw [List.foldlM_cons, hok]
    exact ih hkeeps fun b hb a ha => hpass b hb a (List.mem_cons_of_mem _ ha)

end Checked

end VirtualPC
