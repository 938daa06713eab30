/-
VirtualPC/Machine/Config.lean

Machine layouts: how much RAM there is, where programs are loaded, where the video window
lies and how long a tick lasts.  `validate` accepts a layout when every address the machine
will use is inside RAM and the load address can be reached by the 16-bit program counter; of
several defects it names the first in a fixed order.  A window longer than any size counts as
one of the largest size.
-/
import VirtualPC.Text.Hex
import VirtualPC.Word

namespace VirtualPC

open Text

/-- Where the video window gets its contents from. -/
inductive VideoSource where
  /-- The surface is presented at the end of every tick, over whatever the guest wrote. -/
  | surface
  /-- The guest alone writes the window. -/
  | guest
deriving DecidableEq, Repr

/-- The layout of a machine; the defaults are those of a machine with 64 KiB of RAM whose
upper half is the video window. -/
structure Config where
  ramSize : Nat := 0x10000
  /-- Programs are loaded and started here. -/
  loadAddress : Nat := 0
  /-- The first byte of the video window. -/
  vramStart : Nat := 0x8000
  width : Nat := 256
  height : Nat := 128
  /-- The instruction budget of a tick. -/
  cyclesPerTick : Nat := 3000
  video : VideoSource := .surface
deriving DecidableEq, Repr

/-- Why a layout was refused. -/
inductive ConfigError where
  | zeroRamSize
  | zeroResolution (width height : Nat)
  | vramOutOfRange (vramStart length ramSize : Nat)
  | loadAddressOutOfRange (loadAddress ramSize : Nat)
  | loadAddressNotAddressable (loadAddress : Nat)
deriving DecidableEq, Repr

/-- The text shown for a refused layout. -/
def ConfigError.message : ConfigError → String
  | zeroRamSize => "RAM size must be positive"
  | zeroResolution width height =>
    "display resolution " ++ toString width ++ "x" ++ toString height ++ " must be non-zero"
  | vramOutOfRange vramStart length ramSize =>
    "VRAM window 0x" ++ hexLower vramStart ++ "+" ++ toString length ++ " does not fit in "
      ++ toString ramSize ++ " bytes of RAM"
  | loadAddressOutOfRange loadAddress ramSize =>
    "load address 0x" ++ hexLower loadAddress ++ " is outside RAM (" ++ toString ramSize
      ++ " bytes)"
  | loadAddressNotAddressable loadAddress =>
    "load address 0x" ++ hexLower loadAddress
      ++ " is not reachable by a 16-bit program counter"

namespace Config

/-- The number of bytes in the video window, if it is below the size limit. -/
def vramLength? (c : Config) : Option Nat :=
  if c.width * c.height < sizeLimit then some (c.width * c.height) else none

/-- The number of bytes in the video window, capped at the largest size. -/
def vramLength (c : Config) : Nat := c.vramLength?.getD (sizeLimit - 1)

/-- Checks a layout. -/
def validate (c : Config) : Except ConfigError Unit :=
  if c.ramSize = 0 then .error .zeroRamSize
  else if c.width = 0 ∨ c.height = 0 then .error (.zeroResolution c.width c.height)
  else if c.ramSize < c.vramStart + c.vramLength then
    .error (.vramOutOfRange c.vramStart c.vramLength c.ramSize)
  else if guestSpace ≤ c.loadAddress then .error (.loadAddressNotAddressable c.loadAddress)
  else if c.ramSize ≤ c.loadAddress then
    .error (.loadAddressOutOfRange c.loadAddress c.ramSize)
  else .ok ()

end Config

end VirtualPC
