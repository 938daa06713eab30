/-
VirtualPC/Main.lean

The program: the command line on real files.
-/
import VirtualPC.Command.Run

namespace VirtualPC.RealFiles

/-- A failure of the system as a file error. -/
def fileError : IO.Error → FileError
  | .noFileOrDirectory .. => .notFound
  | .alreadyExists .. => .alreadyExists
  | .inappropriateType _ 21 _ => .isADirectory
  | .inappropriateType _ _ _ => .notADirectory
  | .invalidArgument _ 36 _ => .nameTooLong
  | .permissionDenied _ code text => .system code.toNat text
  | .otherError code text => .system code.toNat text
  | e => .system 5 (toString e)

/-- Does something with real files. -/
def attempt {α : Type} (x : IO α) : ExceptT FileError IO α :=
  ExceptT.mk do
    match ← x.toBaseIO with
    | .ok a => return .ok a
    | .error e => return .error (fileError e)

/-- Whether a name leads to a directory. -/
def isDirectory (name : String) : IO Bool := do
  match ← (IO.FS.realPath name).toBaseIO with
  | .ok path => path.isDir
  | .error _ => return false

/-- The files of the system. -/
instance : FileStore IO where
  readFile name := attempt do return (← IO.FS.readBinFile name).toList
  writeFile name content :=
    attempt (IO.FS.writeBinFile name (ByteArray.mk content.toBytes.toArray))
  pathExists name := ExceptT.mk do
    match ← (IO.FS.realPath name).toBaseIO with
    | .ok _ => return .ok true
    | .error e =>
      match fileError e with
      | .notFound => return .ok false
      | cause => return .error cause
  createDirectory name := attempt (IO.FS.createDir name)
  isDirectory name := isDirectory name

end VirtualPC.RealFiles

/-- Runs the command line and prints what it left to be seen. -/
def main (words : List String) : IO UInt32 := do
  let report : VirtualPC.Command.Report ← VirtualPC.Command.run words
  IO.print report.output
  IO.eprint report.errors
  return UInt32.ofNat report.exitCode
