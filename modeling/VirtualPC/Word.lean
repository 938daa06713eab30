/-
VirtualPC/Word.lean

How wide numbers are, and words as pairs of bytes.  Guest addresses are 16 bits wide and
stored high byte first; splitting a word and joining its bytes are inverse to each other.
-/

namespace VirtualPC

/-- One more than the largest number a size, an address or a count can be; these are 64 bits
wide. -/
def sizeLimit : Nat := 0x10000000000000000

/-- One more than the largest address a 16-bit register can hold. -/
def guestSpace : Nat := 0x10000

/-- The high byte of a word. -/
def highByte (w : UInt16) : UInt8 := (w / 256).toUInt8

/-- The low byte of a word. -/
def lowByte (w : UInt16) : UInt8 := w.toUInt8

/-- The word with the given high and low byte. -/
def wordOfBytes (high low : UInt8) : UInt16 := high.toUInt16 * 256 + low.toUInt16

theorem toNat_wordOfBytes (high low : UInt8) :
    (wordOfBytes high low).toNat = high.toNat * 256 + low.toNat := by
  have := high.toNat_lt
  have := low.toNat_lt
  simp [wordOfBytes]
  omega

@[simp] theorem wordOfBytes_highByte_lowByte (w : UInt16) :
    wordOfBytes (highByte w) (lowByte w) = w := by
  have := w.toNat_lt
  apply UInt16.toNat.inj
  simp [toNat_wordOfBytes, highByte, lowByte]
  omega

@[simp] theorem highByte_wordOfBytes (high low : UInt8) :
    highByte (wordOfBytes high low) = high := by
  have := high.toNat_lt
  have := low.toNat_lt
  apply UInt8.toNat.inj
  simp [toNat_wordOfBytes, highByte]
  omega

@[simp] theorem lowByte_wordOfBytes (high low : UInt8) :
    lowByte (wordOfBytes high low) = low := by
  apply UInt8.toNat.inj
  simp [toNat_wordOfBytes, lowByte]

end VirtualPC
