/-
VirtualPC/Video/Font.lean

The built-in font: glyphs of five columns by seven rows for digits, capital letters and a
little punctuation.  A letter and its other ASCII case share a glyph, and a character without
one is as blank as a space.
-/

namespace VirtualPC

/-- The rows of a glyph, topmost first; the most significant bit is the leftmost column. -/
abbrev Glyph := Vector (BitVec 5) 7

namespace Font

/-- The columns of a glyph. -/
def glyphWidth : Nat := 5

/-- The rows of a glyph. -/
def glyphHeight : Nat := 7

/-- The distance from one character to the next: a glyph and one blank column. -/
def advance : Nat := 6

/-- The glyph without a lit dot. -/
def blank : Glyph := Vector.replicate 7 0

/-- The glyphs of the characters that are not blank. -/
def shape : Char → Glyph
  | ':' => #v[0b00000, 0b00100, 0b00000, 0b00000, 0b00100, 0b00000, 0b00000]
  | '.' => #v[0b00000, 0b00000, 0b00000, 0b00000, 0b00000, 0b00100, 0b00000]
  | '%' => #v[0b11001, 0b11010, 0b00100, 0b01011, 0b10011, 0b00000, 0b00000]
  | '-' => #v[0b00000, 0b00000, 0b00000, 0b11111, 0b00000, 0b00000, 0b00000]
  | '/' => #v[0b00001, 0b00010, 0b00100, 0b01000, 0b10000, 0b00000, 0b00000]
  | '0' => #v[0b01110, 0b10001, 0b10011, 0b10101, 0b11001, 0b10001, 0b01110]
  | '1' => #v[0b00100, 0b01100, 0b00100, 0b00100, 0b00100, 0b00100, 0b01110]
  | '2' => #v[0b01110, 0b10001, 0b00001, 0b00010, 0b00100, 0b01000, 0b11111]
  | '3' => #v[0b11110, 0b00001, 0b00001, 0b01110, 0b00001, 0b00001, 0b11110]
  | '4' => #v[0b00010, 0b00110, 0b01010, 0b10010, 0b11111, 0b00010, 0b00010]
  | '5' => #v[0b11111, 0b10000, 0b11110, 0b00001, 0b00001, 0b10001, 0b01110]
  | '6' => #v[0b00110, 0b01000, 0b10000, 0b11110, 0b10001, 0b10001, 0b01110]
  | '7' => #v[0b11111, 0b00001, 0b00010, 0b00100, 0b01000, 0b01000, 0b01000]
  | '8' => #v[0b01110, 0b10001, 0b10001, 0b01110, 0b10001, 0b10001, 0b01110]
  | '9' => #v[0b01110, 0b10001, 0b10001, 0b01111, 0b00001, 0b00010, 0b11100]
  | 'A' => #v[0b01110, 0b10001, 0b10001, 0b11111, 0b10001, 0b10001, 0b10001]
  | 'B' => #v[0b11110, 0b10001, 0b10001, 0b11110, 0b10001, 0b10001, 0b11110]
  | 'C' => #v[0b01110, 0b10001, 0b10000, 0b10000, 0b10000, 0b10001, 0b01110]
  | 'D' => #v[0b11100, 0b10010, 0b10001, 0b10001, 0b10001, 0b10010, 0b11100]
  | 'E' => #v[0b11111, 0b10000, 0b10000, 0b11110, 0b10000, 0b10000, 0b11111]
  | 'F' => #v[0b11111, 0b10000, 0b10000, 0b11110, 0b10000, 0b10000, 0b10000]
  | 'G' => #v[0b01110, 0b10001, 0b10000, 0b10111, 0b10001, 0b10001, 0b01110]
  | 'H' => #v[0b10001, 0b10001, 0b10001, 0b11111, 0b10001, 0b10001, 0b10001]
  | 'I' => #v[0b01110, 0b00100, 0b00100, 0b00100, 0b00100, 0b00100, 0b01110]
  | 'J' => #v[0b00001, 0b00001, 0b00001, 0b00001, 0b10001, 0b10001, 0b01110]
  | 'K' => #v[0b10001, 0b10010, 0b10100, 0b11000, 0b10100, 0b10010, 0b10001]
  | 'L' => #v[0b10000, 0b10000, 0b10000, 0b10000, 0b10000, 0b10000, 0b11111]
  | 'M' => #v[0b10001, 0b11011, 0b10101, 0b10101, 0b10001, 0b10001, 0b10001]
  | 'N' => #v[0b10001, 0b10001, 0b11001, 0b10101, 0b10011, 0b10001, 0b10001]
  | 'O' => #v[0b01110, 0b10001, 0b10001, 0b10001, 0b10001, 0b10001, 0b01110]
  | 'P' => #v[0b11110, 0b10001, 0b10001, 0b11110, 0b10000, 0b10000, 0b10000]
  | 'Q' => #v[0b01110, 0b10001, 0b10001, 0b10001, 0b10101, 0b10010, 0b01101]
  | 'R' => #v[0b11110, 0b10001, 0b10001, 0b11110, 0b10100, 0b10010, 0b10001]
  | 'S' => #v[0b01111, 0b10000, 0b10000, 0b01110, 0b00001, 0b00001, 0b11110]
  | 'T' => #v[0b11111, 0b00100, 0b00100, 0b00100, 0b00100, 0b00100, 0b00100]
  | 'U' => #v[0b10001, 0b10001, 0b10001, 0b10001, 0b10001, 0b10001, 0b01110]
  | 'V' => #v[0b10001, 0b10001, 0b10001, 0b10001, 0b10001, 0b01010, 0b00100]
  | 'W' => #v[0b10001, 0b10001, 0b10001, 0b10101, 0b10101, 0b10101, 0b01010]
  | 'X' => #v[0b10001, 0b10001, 0b01010, 0b00100, 0b01010, 0b10001, 0b10001]
  | 'Y' => #v[0b10001, 0b10001, 0b01010, 0b00100, 0b00100, 0b00100, 0b00100]
  | 'Z' => #v[0b11111, 0b00001, 0b00010, 0b00100, 0b01000, 0b10000, 0b11111]
  | _ => blank

/-- The glyph of a character, whatever its ASCII case. -/
def glyph (c : Char) : Glyph := shape c.toUpper

end Font

/-- Whether the dot at a row and a column of a glyph is lit. -/
def Glyph.isLit (g : Glyph) (row column : Nat) : Bool :=
  match g[row]? with
  | some bits => bits.getMsbD column
  | none => false

/-- The lit dots of a glyph as pairs of row and column, row by row. -/
def Glyph.litDots (g : Glyph) : List (Nat × Nat) :=
  (List.range Font.glyphHeight).flatMap fun row =>
    ((List.range Font.glyphWidth).filter (g.isLit row)).map fun column => (row, column)

/-- The width in pixels of a drawn text. -/
def textWidth (text : String) : Nat := text.length * Font.advance

end VirtualPC
