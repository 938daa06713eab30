/-
VirtualPC/Proofs/Text/Digits.lean

Numerals tell their numbers.  A hexadecimal numeral of fixed width shows a number modulo a
power of sixteen, digit by digit (`hexDigits_inj`), so the numerals of bytes and words are
those of no others; a decimal numeral is as long as its number needs and tells it whole.

    hexByte_injective, hexWord_injective      fixed width
    toString_nat_injective                    as long as needed, `length_toString_le`

The digits themselves are among `0` to `9` and `A` to `F` (`mem_hexDigits`,
`isDigit_of_mem_toString`).  The numerals of fixed width are the numerals of base sixteen with
zeros in front of them (`hexByte_eq`, `hexWord_eq`).
-/
import Mathlib
import VirtualPC.Text.Hex

namespace VirtualPC.Text

variable {m n count : Nat} {c : Char}

/-! ### Hexadecimal numerals -/

/-- The digits of hexadecimal numerals. -/
def hexAlphabet : List Char := "0123456789ABCDEF".toList

theorem hexDigit_mod (n : Nat) : hexDigit (n % 16) = hexDigit n := by
  simp only [hexDigit, Nat.mod_mod]

theorem hexDigit_inj (h : hexDigit m = hexDigit n) : m % 16 = n % 16 := by
  have hdistinct : ∀ i j : Fin 16, hexDigit i = hexDigit j → i = j := by decide
  rw [← hexDigit_mod m, ← hexDigit_mod n] at h
  have hlt (k : Nat) : k % 16 < 16 := Nat.mod_lt k (by decide)
  exact Fin.mk.inj (hdistinct ⟨m % 16, hlt m⟩ ⟨n % 16, hlt n⟩ h)

theorem hexDigit_mem (n : Nat) : hexDigit n ∈ hexAlphabet := by
  have hmem : ∀ i : Fin 16, hexDigit i ∈ hexAlphabet := by decide
  rw [← hexDigit_mod]
  exact hmem ⟨n % 16, Nat.mod_lt n (by decide)⟩

/-- A numeral of fixed width tells its number modulo a power of sixteen. -/
theorem hexDigits_inj (h : hexDigits m count = hexDigits n count) :
    m % 16 ^ count = n % 16 ^ count := by
  induction count with
  | zero => rw [Nat.pow_zero, Nat.mod_one, Nat.mod_one]
  | succ count ih =>
    obtain ⟨hfirst, hrest⟩ := List.cons.inj h
    -- the first digit is the one that the others leave out
    have hfirst := hexDigit_inj hfirst
    rw [Nat.shiftRight_eq_div_pow, Nat.shiftRight_eq_div_pow, Nat.pow_mul] at hfirst
    rw [Nat.mod_pow_succ, Nat.mod_pow_succ, ih hrest]
    exact congrArg (fun digit => n % 16 ^ count + 16 ^ count * digit) hfirst

theorem mem_hexDigits (h : c ∈ hexDigits n count) : c ∈ hexAlphabet := by
  induction count with
  | zero => cases h
  | succ count ih =>
    obtain _ | ⟨_, hrest⟩ := h
    · exact hexDigit_mem _
    · exact ih hrest

theorem hexByte_injective : Function.Injective hexByte := by
  intro a b h
  have hdigits : a.toNat % 2 ^ 8 = b.toNat % 2 ^ 8 := hexDigits_inj (String.ofList_injective h)
  rw [Nat.mod_eq_of_lt a.toNat_lt, Nat.mod_eq_of_lt b.toNat_lt] at hdigits
  exact UInt8.toNat.inj hdigits

theorem hexWord_injective : Function.Injective hexWord := by
  intro v w h
  have hdigits : v.toNat % 2 ^ 16 = w.toNat % 2 ^ 16 :=
    hexDigits_inj (String.ofList_injective h)
  rw [Nat.mod_eq_of_lt v.toNat_lt, Nat.mod_eq_of_lt w.toNat_lt] at hdigits
  exact UInt16.toNat.inj hdigits

/-! ### Numerals with zeros in front -/

/-- A number in upper-case hexadecimal digits, with zeros in front of them up to a width. -/
def upperHex (width n : Nat) : String :=
  String.ofList (((Nat.toDigits 16 n).map Char.toUpper).leftpad width '0')

theorem hexDigit_eq_toUpper (n : Nat) : hexDigit n = (n % 16).digitChar.toUpper := by
  have hdigits : ∀ i : Fin 16, hexDigit i = (i : Nat).digitChar.toUpper := by decide
  rw [← hexDigit_mod]
  exact hdigits ⟨n % 16, Nat.mod_lt n (by decide)⟩

/-- The last digit is that of the number itself, the others are those of a sixteenth of it. -/
theorem hexDigits_succ (n count : Nat) :
    hexDigits n (count + 1) = hexDigits (n / 16) count ++ [hexDigit n] := by
  induction count with
  | zero => rfl
  | succ count ih =>
    have hfirst : n >>> (4 * (count + 1)) = (n / 16) >>> (4 * count) := by
      rw [Nat.mul_succ, Nat.add_comm, Nat.shiftRight_add,
        Nat.shiftRight_eq_div_pow n 4]
    rw [hexDigits, ih, hfirst, ← List.cons_append]
    rfl

theorem hexDigits_zero (count : Nat) : hexDigits 0 count = List.replicate count '0' := by
  induction count with
  | zero => rfl
  | succ count ih => rw [hexDigits, ih, Nat.zero_shiftRight, List.replicate_succ]; rfl

/-- A numeral of fixed width is the numeral of its number with zeros in front. -/
theorem hexDigits_eq_leftpad (hcount : 0 < count) (h : n < 16 ^ count) :
    hexDigits n count = ((Nat.toDigits 16 n).map Char.toUpper).leftpad count '0' := by
  induction count generalizing n with
  | zero => exact absurd hcount (Nat.lt_irrefl 0)
  | succ count ih =>
    rw [hexDigits_succ]
    rcases Nat.lt_or_ge n 16 with hlt | hge
    -- one digit, and zeros for the rest
    · rw [Nat.toDigits_of_lt_base hlt, Nat.div_eq_of_lt hlt, hexDigits_zero, hexDigit_eq_toUpper,
        Nat.mod_eq_of_lt hlt]
      rfl
    · have hcount : 0 < count := by
        refine Nat.pos_of_ne_zero fun hzero => ?_
        rw [hzero] at h
        omega
      have hdiv : n / 16 < 16 ^ count := by
        rw [Nat.pow_succ] at h
        exact Nat.div_lt_of_lt_mul (Nat.mul_comm _ _ ▸ h)
      rw [ih hcount hdiv, Nat.toDigits_of_base_le (by decide) hge, hexDigit_eq_toUpper]
      simp [List.leftpad]

theorem hexByte_eq (b : UInt8) : hexByte b = upperHex 2 b.toNat :=
  congrArg String.ofList (hexDigits_eq_leftpad (by decide) b.toNat_lt)

theorem hexWord_eq (w : UInt16) : hexWord w = upperHex 4 w.toNat :=
  congrArg String.ofList (hexDigits_eq_leftpad (by decide) w.toNat_lt)

/-! ### Decimal numerals -/

theorem toString_nat_injective : Function.Injective (toString : Nat → String) :=
  fun _ _ h => Nat.repr_injective h

theorem isDigit_of_mem_toString (h : c ∈ (toString n).toList) : c.isDigit = true := by
  rw [Nat.toString_eq_ofList_toDigits, String.toList_ofList] at h
  exact Nat.isDigit_of_mem_toDigits (by decide) (by decide) h

/-- A number below a power of ten has at most as many digits. -/
theorem length_toString_le (hcount : 0 < count) (h : n < 10 ^ count) :
    (toString n).length ≤ count := by
  rw [Nat.toString_eq_ofList_toDigits, String.length_ofList]
  exact (Nat.length_toDigits_le_iff (by decide) hcount).2 h

end VirtualPC.Text
