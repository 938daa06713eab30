/-
VirtualPC/Listing.lean

Disassembly listings.  A window of a listing skips some instructions of the image and shows
the next ones, one line each, at the addresses they have once the image is loaded at a base
address.  Windows never fail: an empty image and a window without any instruction are shown
as a line of their own.
-/
import VirtualPC.Instruction.Decode

namespace VirtualPC.Listing

open Text

/-- The line of an instruction at an offset of an image loaded at `base`. -/
def line (base : UInt16) (offset : Nat) (i : Instruction) : String :=
  hexWord (base + UInt16.ofNat offset) ++ " " ++ i.text

/-- The lines of the part of an image that starts at `offset`: `skip` instructions are
passed over and at most `count` are shown.  `shown` holds the lines so far, the newest
first. -/
def collect (base : UInt16) (offset skip count : Nat) (shown : List String) :
    List UInt8 → List String
  | [] => shown.reverse
  | byte :: rest =>
    let i := Instruction.decodeHead byte rest
    let after := rest.drop (i.width - 1)
    match skip, count with
    | _, 0 => shown.reverse
    | 0, count + 1 =>
      collect base (offset + i.width) 0 count (line base offset i :: shown) after
    | skip + 1, count => collect base (offset + i.width) skip count shown after
termination_by part => part.length
decreasing_by all_goals simp only [List.length_drop, List.length_cons]; omega

/-- The window of `count` instructions after the first `start` ones of an image loaded at
`base`. -/
def window (image : List UInt8) (base : UInt16) (start count : Nat) : List String :=
  if image.isEmpty then ["NO ROM LOADED"]
  else
    match collect base 0 start count [] image with
    | [] => ["END OF ROM"]
    | lines => lines

end VirtualPC.Listing
