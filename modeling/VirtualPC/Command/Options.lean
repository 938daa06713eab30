/-
VirtualPC/Command/Options.lean

The grammar of the command line.  An option is a word `--name`; its value follows as
`--name=value` or in a word of its own, which must not look like an option.  Words are read
from the left, and the value in a word of its own is taken when the next option or the end
is reached.  Every option may be given once.  The option `--help`, or `-h`, ends the reading.
-/
import VirtualPC.Machine.Config
import VirtualPC.Text.Numeral
import VirtualPC.Text.Quoted

namespace VirtualPC.Command

open Text

/-- The options that stand alone. -/
inductive Flag where
  | help
  | listPrograms
  | statusScreen
deriving DecidableEq, Repr

/-- The options that take a value. -/
inductive Setting where
  | rom
  | program
  | installSamples
  | ticks
  | cyclesPerTick
  | ram
  | loadAddress
  | vramStart
  | width
  | height
  | video
  | framePng
  | dumpRam
  | dumpLines
  | disasm
deriving DecidableEq, Repr

/-- The flags with their names. -/
def flagNames : List (String × Flag) :=
  [("help", .help), ("list-programs", .listPrograms), ("status-screen", .statusScreen)]

/-- The settings with their names. -/
def settingNames : List (String × Setting) :=
  [ ("rom", .rom), ("program", .program), ("install-samples", .installSamples),
    ("ticks", .ticks), ("cycles-per-tick", .cyclesPerTick), ("ram", .ram),
    ("load-address", .loadAddress), ("vram-start", .vramStart), ("width", .width),
    ("height", .height), ("video", .video), ("frame-png", .framePng),
    ("dump-ram", .dumpRam), ("dump-lines", .dumpLines), ("disasm", .disasm) ]

/-- The name of a setting. -/
def Setting.name (setting : Setting) : String :=
  ((settingNames.find? fun entry => entry.2 = setting).map Prod.fst).getD ""

/-- What the command line asks for; what it leaves open is `none`. -/
structure Options where
  rom : Option String := none
  program : Option String := none
  listPrograms : Bool := false
  installSamples : Option String := none
  ticks : Option Nat := none
  cyclesPerTick : Option Nat := none
  ram : Option Nat := none
  loadAddress : Option Nat := none
  vramStart : Option Nat := none
  width : Option Nat := none
  height : Option Nat := none
  video : Option VideoSource := none
  statusScreen : Bool := false
  framePng : Option String := none
  dumpRam : Option Nat := none
  dumpLines : Option Nat := none
  disasm : Option Nat := none
deriving DecidableEq, Repr

/-- Why a command line does not give options. -/
inductive UsageError where
  /-- It asks for help instead. -/
  | helpWanted
  | unknownOption (word : String)
  | strayWord (word : String)
  | missingValue (name : String)
  | unexpectedValue (name : String)
  | repeatedOption (name : String)
  /-- The value of a size or an address is no numeral; blanks around it are dropped. -/
  | invalidNumber (text : String) (cause : NumeralError)
  /-- The value of any other option is not one of those it takes. -/
  | invalidValue (name value : String)
  /-- Both an image file and a sample are to be run. -/
  | romWithProgram
  /-- A number of dump lines without a dump. -/
  | linesWithoutDump
deriving DecidableEq, Repr

/-- The text shown for a refused command line. -/
def UsageError.message : UsageError → String
  | helpWanted => "help is asked for"
  | unknownOption word => "unknown option " ++ quoted word
  | strayWord word => "unexpected argument " ++ quoted word
  | missingValue name => "option --" ++ name ++ " needs a value"
  | unexpectedValue name => "option --" ++ name ++ " takes no value"
  | repeatedOption name => "option --" ++ name ++ " is given twice"
  | invalidNumber text cause => "invalid number " ++ quoted text ++ ": " ++ cause.message
  | invalidValue name value => "invalid value " ++ quoted value ++ " for option --" ++ name
  | romWithProgram => "options --rom and --program exclude each other"
  | linesWithoutDump => "option --dump-lines needs option --dump-ram"

/-! ### Values -/

/-- A size or an address, with blanks around it or without. -/
def readSize (value : String) : Except UsageError Nat :=
  let text := trimBlanks value.toList
  (readNumeral text).mapError (.invalidNumber (String.ofList text))

/-- A decimal count. -/
def readCount (name value : String) : Except UsageError Nat :=
  (readDecimal value.toList).mapError fun _ => .invalidValue name value

/-- The most lines a dump may have: enough for the guest's whole address space. -/
def maxDumpLines : Nat := 4096

/-- A number of dump lines. -/
def readLines (name value : String) : Except UsageError Nat := do
  let count ← readCount name value
  if 1 ≤ count ∧ count ≤ maxDumpLines then return count else throw (.invalidValue name value)

/-- The name of a file. -/
def readName (name value : String) : Except UsageError String :=
  if value.isEmpty then .error (.invalidValue name value) else .ok value

/-- A source of video contents. -/
def readVideo (name value : String) : Except UsageError VideoSource :=
  if value = "guest" then .ok .guest
  else if value = "surface" then .ok .surface
  else .error (.invalidValue name value)

/-- The value of an option that has not been given before. -/
def once {α : Type} (name : String) (before : Option α) (value : Except UsageError α) :
    Except UsageError (Option α) :=
  match before with
  | some _ => .error (.repeatedOption name)
  | none => value.map some

namespace Options

/-- The options with the value of a setting added. -/
def set (o : Options) (setting : Setting) (value : String) : Except UsageError Options :=
  let name := setting.name
  match setting with
  | .rom => return { o with rom := ← once name o.rom (readName name value) }
  | .program => return { o with program := ← once name o.program (.ok value) }
  | .installSamples =>
    return { o with installSamples := ← once name o.installSamples (readName name value) }
  | .ticks => return { o with ticks := ← once name o.ticks (readCount name value) }
  | .cyclesPerTick =>
    return { o with cyclesPerTick := ← once name o.cyclesPerTick (readSize value) }
  | .ram => return { o with ram := ← once name o.ram (readSize value) }
  | .loadAddress => return { o with loadAddress := ← once name o.loadAddress (readSize value) }
  | .vramStart => return { o with vramStart := ← once name o.vramStart (readSize value) }
  | .width => return { o with width := ← once name o.width (readSize value) }
  | .height => return { o with height := ← once name o.height (readSize value) }
  | .video => return { o with video := ← once name o.video (readVideo name value) }
  | .framePng => return { o with framePng := ← once name o.framePng (readName name value) }
  | .dumpRam => return { o with dumpRam := ← once name o.dumpRam (readSize value) }
  | .dumpLines => return { o with dumpLines := ← once name o.dumpLines (readLines name value) }
  | .disasm => return { o with disasm := ← once name o.disasm (readCount name value) }

/-- The options with a flag raised. -/
def raise (o : Options) (name : String) : Flag → Except UsageError Options
  | .help => .error .helpWanted
  | .listPrograms =>
    if o.listPrograms then .error (.repeatedOption name) else .ok { o with listPrograms := true }
  | .statusScreen =>
    if o.statusScreen then .error (.repeatedOption name) else .ok { o with statusScreen := true }

end Options

/-! ### Words -/

/-- What a word is by its first characters. -/
inductive Word where
  /-- The word `--`, after which no word is an option. -/
  | terminator
  /-- An option `--name`, with the value after an equals sign if there is one. -/
  | option (name : String) (attached : Option String)
  /-- A single dash and a letter that is no option. -/
  | short (text : String)
  | plain (text : String)
deriving DecidableEq, Repr

/-- A text up to its first equals sign, and what follows the sign. -/
def splitAtEquals (text : List Char) : String × Option String :=
  let name := text.takeWhile (· != '=')
  match text.dropWhile (· != '=') with
  | [] => (String.ofList name, none)
  | _ :: value => (String.ofList name, some (String.ofList value))

/-- Tells what a word is.  A dash alone is a plain word; `-h` asks for help, whatever follows
in the word. -/
def Word.ofText (text : String) : Word :=
  match text.toList with
  | ['-', '-'] => .terminator
  | '-' :: '-' :: rest => let (name, attached) := splitAtEquals rest; .option name attached
  | '-' :: 'h' :: _ => .option "help" none
  | '-' :: _ :: _ => .short text
  | _ => .plain text

/-- A setting whose value is in a word of its own, and that value once it is read. -/
structure Pending where
  setting : Setting
  value : Option String := none

/-- Takes the value of a pending setting. -/
def settle (o : Options) : Option Pending → Except UsageError Options
  | none => .ok o
  | some ⟨setting, none⟩ => .error (.missingValue setting.name)
  | some ⟨setting, some value⟩ => o.set setting value

/-- Reads words after those that gave `o` and `pending`. -/
def readWords (o : Options) (pending : Option Pending) :
    List String → Except UsageError Options
  | [] => settle o pending
  | text :: rest =>
    match Word.ofText text with
    | .terminator =>
      match rest with
      | [] => settle o pending
      | word :: _ => .error (.strayWord word)
    | .option name attached =>
      match settingNames.lookup name, flagNames.lookup name, attached with
      | some setting, _, some value => do
        readWords (← (← settle o pending).set setting value) none rest
      | some setting, _, none => do
        readWords (← settle o pending) (some ⟨setting, none⟩) rest
      | none, some _, some _ => .error (.unexpectedValue name)
      | none, some flag, none => do
        readWords (← (← settle o pending).raise name flag) none rest
      | none, none, _ => .error (.unknownOption text)
    | .short text => .error (.unknownOption text)
    | .plain text =>
      match pending with
      | some ⟨setting, none⟩ => readWords o (some ⟨setting, some text⟩) rest
      | _ => .error (.strayWord text)

/-- Checks what options ask for together. -/
def Options.check (o : Options) : Except UsageError Options :=
  if o.rom.isSome ∧ o.program.isSome then .error .romWithProgram
  else if o.dumpLines.isSome ∧ o.dumpRam.isNone then .error .linesWithoutDump
  else .ok o

/-- Reads a command line. -/
def Options.ofWords (words : List String) : Except UsageError Options := do
  (← readWords {} none words).check

/-- The layout that the options ask for.  Without a choice the surface is presented only if
the status screen is drawn on it. -/
def Options.config (o : Options) : Config :=
  let standard : Config := {}
  { ramSize := o.ram.getD standard.ramSize
    loadAddress := o.loadAddress.getD standard.loadAddress
    vramStart := o.vramStart.getD standard.vramStart
    width := o.width.getD standard.width
    height := o.height.getD standard.height
    cyclesPerTick := o.cyclesPerTick.getD standard.cyclesPerTick
    video := o.video.getD (if o.statusScreen then .surface else .guest) }

end VirtualPC.Command
