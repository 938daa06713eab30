/-
VirtualPC/Memory/Dump.lean

Hex dumps of RAM.  A line is the address of its first byte, a colon, and its bytes.
Addresses go round: the cell after the last one is the first, so a dump may start anywhere
and be as long as it likes.
-/
import VirtualPC.Memory

namespace VirtualPC.Ram

open Text

/-- The byte that `address` reaches when addresses go round at the size of RAM. -/
def cyclicRead (ram : Ram) (address : Nat) : UInt8 :=
  have inside := Nat.mod_lt address ram.size_pos
  ram.cells[address % ram.cells.size]

/-- One dump line: the low 16 bits of `address`, then `width` bytes. -/
def dumpLine (ram : Ram) (address width : Nat) : String :=
  (List.range width).foldl (fun line i => line ++ " " ++ hexByte (ram.cyclicRead (address + i)))
    (hexWord (UInt16.ofNat address) ++ ":")

/-- `count` dump lines from `address` on, each of `width` bytes. -/
def dumpFrom (ram : Ram) (width : Nat) : (count address : Nat) → List String
  | 0, _ => []
  | count + 1, address =>
    ram.dumpLine address width :: ram.dumpFrom width count ((address + width) % ram.size)

/-- The hex dump that starts at `start`. -/
def dump (ram : Ram) (start count width : Nat) : List String :=
  ram.dumpFrom width count (start % ram.size)

end VirtualPC.Ram
