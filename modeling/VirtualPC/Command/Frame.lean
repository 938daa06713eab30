/-
VirtualPC/Command/Frame.lean

Saving the last frame.  The ending of the file name decides on the format, and PNG is the
only one that can be written.  A name with the ending of another known format is refused only
once the file is there, so it is left empty.
-/
import VirtualPC.Files.Path
import VirtualPC.Files.Store
import VirtualPC.Text.Quoted

namespace VirtualPC.Command

open Text

/-- Why a picture was not saved. -/
inductive SaveError where
  | file (cause : FileError)
  /-- The name has no ending. -/
  | noEnding
  | unknownEnding (ending : String)
  /-- The ending of a format that cannot be written. -/
  | unsupported (format : String)
deriving DecidableEq, Repr

/-- The text shown for a picture that was not saved. -/
def SaveError.message : SaveError → String
  | file cause => cause.message
  | noEnding => "The image format could not be determined"
  | unknownEnding ending =>
    "The file extension `." ++ quoted ending ++ "` was not recognized as an image format"
  | unsupported format => "The image format `" ++ format ++ "` is not supported"

/-- The picture formats by the endings of their files. -/
def pictureFormats : List (String × String) :=
  [ ("avif", "Avif"), ("jpg", "Jpeg"), ("jpeg", "Jpeg"), ("jfif", "Jpeg"), ("png", "Png"),
    ("apng", "Png"), ("gif", "Gif"), ("webp", "WebP"), ("tif", "Tiff"), ("tiff", "Tiff"),
    ("tga", "Tga"), ("dds", "Dds"), ("bmp", "Bmp"), ("ico", "Ico"), ("hdr", "Hdr"),
    ("exr", "OpenExr"), ("pbm", "Pnm"), ("pam", "Pnm"), ("ppm", "Pnm"), ("pgm", "Pnm"),
    ("pnm", "Pnm"), ("ff", "Farbfeld"), ("qoi", "Qoi") ]

/-- The format of a file by its name. -/
def formatOf (name : String) : Except SaveError String :=
  match Path.extension? name with
  | none => .error .noEnding
  | some ending =>
    match pictureFormats.lookup (ending.map Char.toLower) with
    | none => .error (.unknownEnding ending)
    | some format => .ok format

variable {m : Type → Type} [Monad m] [FileStore m]

/-- Saves a picture. -/
def savePicture (name : String) (picture : Picture) : ExceptT SaveError m Unit := do
  let format ← ExceptT.mk (pure (formatOf name))
  let write (content : Content) : ExceptT SaveError m Unit :=
    ExceptT.adapt .file (FileStore.writeFile name content)
  if format = "Png" then write (.picture picture)
  else
    write (.bytes [])
    throw (.unsupported format)

end VirtualPC.Command
