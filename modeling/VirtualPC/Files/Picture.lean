/-
VirtualPC/Files/Picture.lean

Pictures and the PNG format.  A picture is written with eight bits for each of red, green,
blue and opacity, in unfiltered rows, and with its data stored rather than compressed.
-/
import VirtualPC.Video.Display
import VirtualPC.Word

namespace VirtualPC

/-- A grid of opaque colours, row by row. -/
structure Picture where
  width : Nat
  height : Nat
  cells : List Rgb
deriving DecidableEq, Repr

/-- What the display shows. -/
def Display.picture (d : Display) : Picture := ⟨d.width, d.height, d.frame⟩

namespace Picture

/-- The four bytes of a number, most significant first. -/
def bigEndian (n : Nat) : List UInt8 :=
  [24, 16, 8, 0].map fun shift => UInt8.ofNat (n >>> shift)

/-- One bit of the cyclic redundancy check of a chunk. -/
def crcBit (crc : UInt32) : UInt32 :=
  if crc % 2 = 1 then (crc >>> 1) ^^^ 0xEDB88320 else crc >>> 1

/-- One byte of the cyclic redundancy check of a chunk. -/
def crcByte (crc : UInt32) (b : UInt8) : UInt32 :=
  (List.range 8).foldl (fun crc _ => crcBit crc) (crc ^^^ b.toUInt32)

/-- The cyclic redundancy check of a chunk. -/
def crc (bytes : List UInt8) : UInt32 := bytes.foldl crcByte 0xFFFFFFFF ^^^ 0xFFFFFFFF

/-- The checksum at the end of the picture data: two running sums modulo 65521. -/
def adler (bytes : List UInt8) : Nat :=
  let (low, high) := bytes.foldl
    (fun (low, high) b => ((low + b.toNat) % 65521, (high + low + b.toNat) % 65521)) (1, 0)
  high * 0x10000 + low

/-- A chunk: its length, its four-letter name, its data and the check of the latter two. -/
def chunk (name : String) (data : List UInt8) : List UInt8 :=
  let named := name.toList.map (fun c => UInt8.ofNat c.toNat) ++ data
  bigEndian data.length ++ named ++ bigEndian (crc named).toNat

/-- The largest number of bytes in one stored block. -/
def blockLimit : Nat := 0xFFFF

/-- A stored block; `final` is 1 for the last one. -/
def storedBlock (final : UInt8) (block : List UInt8) : List UInt8 :=
  let size := UInt16.ofNat block.length
  [final, lowByte size, highByte size, lowByte (~~~size), highByte (~~~size)] ++ block

/-- Data as `more` full blocks and a last one. -/
def storedBlocks : (more : Nat) → List UInt8 → List UInt8
  | 0, data => storedBlock 1 data
  | more + 1, data =>
    storedBlock 0 (data.take blockLimit) ++ storedBlocks more (data.drop blockLimit)

/-- The rows of a picture, each after a zero that marks it as unfiltered. -/
def rows (width : Nat) : (height : Nat) → List Rgb → List UInt8
  | 0, _ => []
  | height + 1, cells =>
    0 :: (cells.take width).flatMap (fun c => [c.red, c.green, c.blue, 0xFF]) ++
      rows width height (cells.drop width)

/-- A picture as the bytes of a PNG file. -/
def pngBytes (p : Picture) : List UInt8 :=
  let data := rows p.width p.height p.cells
  [0x89, 0x50, 0x4E, 0x47, 0x0D, 0x0A, 0x1A, 0x0A] ++
    chunk "IHDR" (bigEndian p.width ++ bigEndian p.height ++ [8, 6, 0, 0, 0]) ++
    chunk "IDAT" ([0x78, 0x01] ++ storedBlocks (data.length / blockLimit) data
      ++ bigEndian (adler data)) ++
    chunk "IEND" []

end Picture

end VirtualPC
