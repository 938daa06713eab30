/-
VirtualPC/Command/Usage.lean

The help text: one line for each option, the option first and what it does beside it.
-/
import VirtualPC.Command.Options

namespace VirtualPC.Command

/-- What a flag does. -/
def Flag.description : Flag → String
  | help => "show this help and stop"
  | listPrograms => "list the sample programs and stop"
  | statusScreen => "draw the status screen before every tick"

/-- The value a setting takes, and what it sets. -/
def Setting.description : Setting → String × String
  | rom => ("FILE", "run the program image in a file")
  | program => ("NAME", "run a sample program [demo]")
  | installSamples => ("DIR", "write the missing sample programs to a directory and stop")
  | ticks => ("N", "run at most so many ticks [60]")
  | cyclesPerTick => ("N", "run at most so many instructions in a tick")
  | ram => ("N", "the size of RAM in bytes")
  | loadAddress => ("N", "the address a program is loaded at and starts from")
  | vramStart => ("N", "the first address of the video window")
  | width => ("N", "the width of the display")
  | height => ("N", "the height of the display")
  | video => ("SOURCE", "what fills the video window: guest or surface")
  | framePng => ("FILE", "save the last frame as a picture")
  | dumpRam => ("N", "show RAM from an address on at the end")
  | dumpLines => ("N", "show so many lines of RAM, 1 to 4096 [8]")
  | disasm => ("N", "show the first instructions of the program")

/-- The width of the column with the options. -/
def usageColumn : Nat := 28

/-- A line of the help text. -/
def usageLine (option description : String) : String :=
  "  " ++ option ++ String.ofList (List.replicate (usageColumn - option.length) ' ')
    ++ description

/-- The lines of the help text. -/
def usage : List String :=
  "Runs a program on the virtual PC, without a window." :: "" :: "Options:" ::
    (settingNames.map (fun (name, setting) =>
      usageLine ("--" ++ name ++ " " ++ setting.description.1) setting.description.2)
    ++ flagNames.map fun (name, flag) => usageLine ("--" ++ name) flag.description)

end VirtualPC.Command
