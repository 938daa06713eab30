/-
VirtualPC/Video/Palette.lean

Colours.  A pixel is an index into a palette of 256 colours.  The standard palette starts
with the seven colours of the user interface; every later index is the grey of its own
brightness.
-/

namespace VirtualPC

/-- A 24-bit colour. -/
structure Rgb where
  red : UInt8 := 0
  green : UInt8 := 0
  blue : UInt8 := 0
deriving DecidableEq, Repr

namespace Rgb

/-- The colour packed as `0xRRGGBB`; a top byte is dropped. -/
def ofPacked (n : UInt32) : Rgb :=
  ⟨(n / 0x10000).toUInt8, (n / 0x100).toUInt8, n.toUInt8⟩

/-- The packed form `0xRRGGBB` of a colour. -/
def packed (c : Rgb) : UInt32 :=
  c.red.toUInt32 * 0x10000 + c.green.toUInt32 * 0x100 + c.blue.toUInt32

theorem toNat_packed (c : Rgb) :
    c.packed.toNat = c.red.toNat * 0x10000 + c.green.toNat * 0x100 + c.blue.toNat := by
  have := c.red.toNat_lt
  have := c.green.toNat_lt
  have := c.blue.toNat_lt
  simp [packed]
  omega

@[simp] theorem ofPacked_packed (c : Rgb) : ofPacked c.packed = c := by
  rcases c with ⟨red, green, blue⟩
  have := red.toNat_lt
  have := green.toNat_lt
  have := blue.toNat_lt
  simp only [ofPacked, mk.injEq]
  refine ⟨UInt8.toNat.inj ?_, UInt8.toNat.inj ?_, UInt8.toNat.inj ?_⟩ <;>
    simp [toNat_packed] <;> omega

end Rgb

/-- The colour of each pixel value. -/
structure Palette where
  colours : Vector Rgb 256

namespace Palette

/-- The colour of a pixel value. -/
def colour (p : Palette) (index : UInt8) : Rgb :=
  have inside : index.toNat < 256 := index.toNat_lt
  p.colours[index.toNat]

/-- The colour of a pixel value is the entry of the table at that index. -/
theorem colour_eq (p : Palette) (index : UInt8) : p.colour index = p.colours[index.toFin] := rfl

/-! ### The pixel values of the user interface -/

/-- The value of an untouched pixel. -/
def base : UInt8 := 0
def background : UInt8 := 1
def panel : UInt8 := 2
def window : UInt8 := 3
def windowBorder : UInt8 := 4
def text : UInt8 := 5
def accent : UInt8 := 6

/-- The colours of the user interface, by pixel value. -/
def chrome : List UInt32 :=
  [0x10151F, 0x1E2A3A, 0x21344A, 0x2B3F58, 0x6E7C91, 0xDDE6F2, 0x53E5B0]

/-- The colours of the user interface, then greys. -/
def standard : Palette where
  colours := Vector.ofFn fun i =>
    match chrome[i.val]? with
    | some n => Rgb.ofPacked n
    | none => ⟨UInt8.ofNat i.val, UInt8.ofNat i.val, UInt8.ofNat i.val⟩

/-- The palette whose colours are all the same. -/
def uniform (c : Rgb) : Palette := ⟨Vector.replicate 256 c⟩

/-- The palette with another colour at one pixel value. -/
def set (p : Palette) (index : UInt8) (c : Rgb) : Palette :=
  ⟨p.colours.set index.toNat c index.toNat_lt⟩

end Palette

end VirtualPC
