/-
VirtualPC/Files/Install.lean

Installing the samples: one file for each of them in a directory, assembled for the default
layout.  A name that is taken already is left alone, so installing twice is the same as
installing once.
-/
import VirtualPC.Files.Directory
import VirtualPC.Machine.Sample

namespace VirtualPC.Sample

variable {m : Type → Type} [Monad m] [FileStore m]

/-- The image a sample is installed as: for load address 0 and a window at `0x8000`. -/
def installedImage (s : Sample) : List UInt8 := s.image 0 0x8000

/-- Writes those of the samples that are missing in a directory, and lists their names. -/
def installMissing (dir : String) : List Sample → ExceptT FileError m (List String)
  | [] => return []
  | s :: rest => do
    let name := Path.join dir s.fileName
    if ← FileStore.pathExists name then installMissing dir rest
    else
      FileStore.writeFile name (.bytes s.installedImage)
      return name :: (← installMissing dir rest)

/-- Installs the samples in a directory, which is created if need be, and lists the names of
the files written. -/
def install (dir : String) : ExceptT FileError m (List String) := do
  FileStore.createDirectories dir
  installMissing dir all

end VirtualPC.Sample
