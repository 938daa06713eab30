/-
VirtualPC/Text/Numeral.lean

Numerals for sizes, addresses and counts.  A numeral is one or more digits, after an optional
plus sign; after `0x` or `0X` the digits, and the sign before them, are hexadecimal.  Digits
are read from the left, and reading ends at the first character that is no digit or the
first digit that takes the value to `2 ^ 64` or beyond.
-/
import VirtualPC.Text.Blank
import VirtualPC.Word

namespace VirtualPC.Text

/-- Why a text is no numeral. -/
inductive NumeralError where
  | empty
  | invalidDigit
  | tooLarge
deriving DecidableEq, Repr

/-- The text shown for a refused numeral. -/
def NumeralError.message : NumeralError → String
  | empty => "cannot parse integer from empty string"
  | invalidDigit => "invalid digit found in string"
  | tooLarge => "number too large to fit in target type"

/-- The value of a digit in a base of at most 16. -/
def digitValue? (base : Nat) (c : Char) : Option Nat :=
  let value :=
    if '0' ≤ c ∧ c ≤ '9' then some (c.toNat - '0'.toNat)
    else if 'a' ≤ c ∧ c ≤ 'f' then some (c.toNat - 'a'.toNat + 10)
    else if 'A' ≤ c ∧ c ≤ 'F' then some (c.toNat - 'A'.toNat + 10)
    else none
  value.filter (· < base)

/-- Reads digits after those whose value is `value`. -/
def readDigits (base value : Nat) : List Char → Except NumeralError Nat
  | [] => .ok value
  | c :: rest =>
    match digitValue? base c with
    | none => .error .invalidDigit
    | some d =>
      if value * base + d < sizeLimit then readDigits base (value * base + d) rest
      else .error .tooLarge

/-- Reads a numeral without a base mark. -/
def readUnmarked (base : Nat) : List Char → Except NumeralError Nat
  | [] => .error .empty
  | '+' :: [] => .error .invalidDigit
  | '+' :: digits => readDigits base 0 digits
  | digits => readDigits base 0 digits

/-- Reads a decimal numeral. -/
def readDecimal (text : List Char) : Except NumeralError Nat := readUnmarked 10 text

/-- Reads a numeral that may be marked as hexadecimal. -/
def readNumeral : List Char → Except NumeralError Nat
  | '0' :: 'x' :: rest => readUnmarked 16 rest
  | '0' :: 'X' :: rest => readUnmarked 16 rest
  | text => readUnmarked 10 text

end VirtualPC.Text
