/-
VirtualPC/Text/Hex.lean

Hexadecimal numerals.  Addresses and bytes are shown with a fixed number of upper-case
digits (`hexWord`, `hexByte`), so that columns line up; sizes and addresses inside error
texts use as many lower-case digits as they need (`hexLower`).
-/

namespace VirtualPC.Text

/-- The upper-case hexadecimal digit of `d`, taken modulo 16. -/
def hexDigit (d : Nat) : Char :=
  if d % 16 < 10 then Char.ofNat (48 + d % 16) else Char.ofNat (55 + d % 16)

/-- The last `count` hexadecimal digits of `n`, most significant first. -/
def hexDigits (n : Nat) : (count : Nat) → List Char
  | 0 => []
  | count + 1 => hexDigit (n >>> (4 * count)) :: hexDigits n count

/-- Two upper-case digits. -/
def hexByte (b : UInt8) : String := String.ofList (hexDigits b.toNat 2)

/-- Four upper-case digits. -/
def hexWord (w : UInt16) : String := String.ofList (hexDigits w.toNat 4)

/-- As many lower-case digits as `n` needs, at least one. -/
def hexLower (n : Nat) : String := String.ofList (Nat.toDigits 16 n)

@[simp] theorem length_hexDigits (n count : Nat) : (hexDigits n count).length = count := by
  induction count with
  | zero => rfl
  | succ count ih => simp [hexDigits, ih]

end VirtualPC.Text
