/-
VirtualPC/Proofs/Machine/Layout.lean

Which layouts are accepted, and for what reason the others are refused.  The conditions on a
layout are about unbounded integers and stand in a fixed order (`Config.conditions`):

    RAM has a cell;  the display has a pixel;  the window ends inside RAM;
    the program counter reaches the load address;  the load address is inside RAM

The verdict on a layout is the error of the first condition that it violates
(`Config.verdict`).  `validate` measures the window in 64 bits: a length that no size can hold
counts as the largest size.  A window of that length fits where it starts at zero and RAM has
the largest size, so the longer windows that it stands for pass as well there
(`Config.Miscounted`).

Main result: those layouts apart, the check agrees with the verdict
(`validate_eq_verdict_iff`).
-/
import VirtualPC.Proofs.Machine.Invariant

namespace VirtualPC.Config

variable {c : Config}

/-! ### Conditions -/

/-- The conditions on a layout over unbounded integers, in the order in which they are
reported: whether each one holds, and the error if it does not.  The length of a window is
reported as a size. -/
def conditions (c : Config) : List (Bool × ConfigError) :=
  [(0 < c.ramSize, .zeroRamSize),
    (0 < c.width ∧ 0 < c.height, .zeroResolution c.width c.height),
    (c.vramStart + c.width * c.height ≤ c.ramSize,
      .vramOutOfRange c.vramStart (min (c.width * c.height) (sizeLimit - 1)) c.ramSize),
    (c.loadAddress ≤ 0xFFFF, .loadAddressNotAddressable c.loadAddress),
    (c.loadAddress < c.ramSize, .loadAddressOutOfRange c.loadAddress c.ramSize)]

/-- The error of the first condition that a layout violates, if it violates any. -/
def verdict (c : Config) : Except ConfigError Unit :=
  match c.conditions.find? fun condition => !condition.1 with
  | none => .ok ()
  | some condition => .error condition.2

/-- A window longer than any size, which passes for one that fills the largest RAM. -/
def Miscounted (c : Config) : Prop :=
  c.ramSize = sizeLimit - 1 ∧ c.vramStart = 0 ∧ sizeLimit ≤ c.width * c.height

theorem verdict_eq_ok_iff_forall :
    c.verdict = .ok () ↔ ∀ condition ∈ c.conditions, condition.1 = true := by
  unfold verdict
  split
  · next hfind => simpa using hfind
  · next condition hfind =>
    have hviolated := List.find?_some hfind
    simp only [reduceCtorEq, false_iff]
    intro h
    rw [h condition (List.mem_of_find?_eq_some hfind)] at hviolated
    cases hviolated

/-- A layout is in order if it satisfies every condition. -/
theorem verdict_eq_ok_iff :
    c.verdict = .ok () ↔ 0 < c.ramSize ∧ 0 < c.width ∧ 0 < c.height ∧
      c.vramStart + c.width * c.height ≤ c.ramSize ∧ c.loadAddress ≤ 0xFFFF ∧
      c.loadAddress < c.ramSize := by
  rw [verdict_eq_ok_iff_forall]
  simp [conditions, and_assoc]

/-! ### The check -/

/-- A window that is not miscounted is found to fit exactly if it does. -/
theorem window_fits_iff (hsize : c.ramSize < sizeLimit) (h : ¬ c.Miscounted) :
    c.vramStart + c.vramLength ≤ c.ramSize ↔
      c.vramStart + c.width * c.height ≤ c.ramSize := by
  unfold Miscounted at h
  rw [vramLength_eq_min]
  omega

/-- Where the window is found to fit exactly if it does, the check finds the first violated
condition. -/
theorem validate_eq_verdict
    (hwindow : c.vramStart + c.vramLength ≤ c.ramSize ↔
      c.vramStart + c.width * c.height ≤ c.ramSize) :
    c.validate = c.verdict := by
  -- the check goes through the conditions in their order; at each one those before it hold
  unfold validate
  split
  · next h => simp [verdict, conditions, h]
  next hram =>
  have hram : 0 < c.ramSize := Nat.pos_of_ne_zero hram
  split
  · next h =>
    have hpixels : ¬ (0 < c.width ∧ 0 < c.height) := by omega
    simp [verdict, conditions, hram, hpixels]
  next hpixels =>
  have hpixels : 0 < c.width ∧ 0 < c.height := by omega
  split
  · next h =>
    have hfits : ¬ c.vramStart + c.width * c.height ≤ c.ramSize := by omega
    simp [verdict, conditions, hram, hpixels, hfits, vramLength_eq_min]
  next hfits =>
  have hfits : c.vramStart + c.width * c.height ≤ c.ramSize := by omega
  split
  · next h =>
    have hreach : ¬ c.loadAddress ≤ 0xFFFF := Nat.not_le.2 h
    simp [verdict, conditions, hram, hpixels, hfits, hreach]
  next hreach =>
  have hreach : c.loadAddress ≤ 0xFFFF := Nat.not_lt.1 hreach
  split
  · next h =>
    have hload : ¬ c.loadAddress < c.ramSize := Nat.not_lt.2 h
    simp [verdict, conditions, hram, hpixels, hfits, hreach, hload]
  · next hload =>
    exact (verdict_eq_ok_iff.2 ⟨hram, hpixels.1, hpixels.2, hfits, hreach, Nat.not_le.1 hload⟩).symm

namespace Miscounted

/-- A miscounted window does not fit. -/
theorem verdict_eq (h : c.Miscounted) :
    c.verdict = .error (.vramOutOfRange 0 (sizeLimit - 1) (sizeLimit - 1)) := by
  obtain ⟨hsize, hstart, hlength⟩ := h
  have hram : 0 < sizeLimit - 1 := by decide
  have hproduct : 0 < c.width * c.height := by omega
  have hpixels : 0 < c.width ∧ 0 < c.height :=
    ⟨Nat.pos_of_mul_pos_right hproduct, Nat.pos_of_mul_pos_left hproduct⟩
  have hcapped : min (c.width * c.height) (sizeLimit - 1) = sizeLimit - 1 := by omega
  have hlong : ¬ c.width * c.height ≤ sizeLimit - 1 := by omega
  simp [verdict, conditions, hsize, hstart, hpixels, hcapped, hlong, hram]

/-- The check of a miscounted window goes on to the load address. -/
theorem validate_eq (h : c.Miscounted) :
    c.validate = if c.loadAddress ≤ 0xFFFF then .ok ()
      else .error (.loadAddressNotAddressable c.loadAddress) := by
  obtain ⟨hsize, hstart, hlength⟩ := h
  have hlimit : 0xFFFF < sizeLimit - 1 := by decide
  have hproduct : c.width * c.height ≠ 0 := by omega
  have hpixels : ¬ (c.width = 0 ∨ c.height = 0) := by
    rwa [← Nat.mul_eq_zero]
  have hfits : ¬ c.ramSize < c.vramStart + c.vramLength := by
    rw [vramLength_eq_min]
    omega
  unfold validate
  rw [if_neg (by omega), if_neg hpixels, if_neg hfits]
  by_cases hreach : guestSpace ≤ c.loadAddress
  · rw [if_pos hreach, if_neg (Nat.not_le.2 hreach)]
  · have hbelow : c.loadAddress ≤ 0xFFFF := Nat.not_lt.1 hreach
    rw [if_neg hreach, if_neg (by omega), if_pos hbelow]

theorem validate_ne_verdict (h : c.Miscounted) : c.validate ≠ c.verdict := by
  rw [h.validate_eq, h.verdict_eq]
  split <;> simp

end Miscounted

/-- **The check of a layout is exact but for miscounted windows.**  Take any layout whose RAM
has a size.  Where the window is not miscounted, the check accepts the layout exactly if it
satisfies every condition over unbounded integers, and refuses it for the first condition that
it violates.  Where it is, the check does not notice that the window is too long. -/
theorem validate_eq_verdict_iff (c : Config) (hsize : c.ramSize < sizeLimit) :
    (c.validate = c.verdict ↔ ¬ c.Miscounted) ∧
    (¬ c.Miscounted → (c.validate = .ok () ↔
      0 < c.ramSize ∧ 0 < c.width ∧ 0 < c.height ∧
      c.vramStart + c.width * c.height ≤ c.ramSize ∧ c.loadAddress ≤ 0xFFFF ∧
      c.loadAddress < c.ramSize)) ∧
    (c.Miscounted → c.ramSize < c.vramStart + c.width * c.height ∧
      c.validate = if c.loadAddress ≤ 0xFFFF then .ok ()
        else .error (.loadAddressNotAddressable c.loadAddress)) := by
  have hexact : ¬ c.Miscounted → c.validate = c.verdict := fun h =>
    validate_eq_verdict (window_fits_iff hsize h)
  refine ⟨⟨?_, hexact⟩, ?_, ?_⟩
  · intro h hmiscounted
    exact hmiscounted.validate_ne_verdict h
  · intro h
    rw [hexact h]
    exact verdict_eq_ok_iff
  · intro h
    exact ⟨by have := h.2.2; omega, h.validate_eq⟩

/-- A window too long for any size, one byte further up than a miscounted one. -/
def overlong : Config where
  ramSize := sizeLimit - 1
  vramStart := 1
  width := 0x100000000
  height := 0x100000000

theorem overlong_refused : overlong.ramSize < sizeLimit ∧ ¬ overlong.Miscounted ∧
    overlong.validate = .error (.vramOutOfRange 1 (sizeLimit - 1) (sizeLimit - 1)) := by
  have hsize : overlong.ramSize < sizeLimit := by decide
  have hcounted : ¬ overlong.Miscounted := by
    rintro ⟨-, hstart, -⟩
    cases hstart
  obtain ⟨hexact, -⟩ := validate_eq_verdict_iff overlong hsize
  exact ⟨hsize, hcounted, (hexact.2 hcounted).trans rfl⟩

/-- The same window at the start of RAM. -/
def miscounted : Config := { overlong with vramStart := 0 }

/-- **A window that does not fit can be accepted.** -/
theorem miscounted_accepted : miscounted.validate = .ok () ∧
    miscounted.verdict = .error (.vramOutOfRange 0 (sizeLimit - 1) (sizeLimit - 1)) ∧
    miscounted.ramSize < miscounted.vramStart + miscounted.width * miscounted.height := by
  have h : miscounted.Miscounted := ⟨rfl, rfl, by decide⟩
  exact ⟨rfl, h.verdict_eq, by decide⟩

end VirtualPC.Config
