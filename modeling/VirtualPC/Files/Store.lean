/-
VirtualPC/Files/Store.lean

What the program needs of a file system.  `FileStore` lists the operations, so that the same
code works on real files and on a `FileTree`, a file system held as a value.
-/
import VirtualPC.Files.Picture

namespace VirtualPC

/-- Why a file operation failed. -/
inductive FileError where
  | notFound
  | alreadyExists
  | notADirectory
  | isADirectory
  | nameTooLong
  /-- A name with a NUL character, which the system is not even asked about. -/
  | nulInName
  /-- Any other failure, with the code and the text the system gives it. -/
  | system (code : Nat) (text : String)
deriving DecidableEq, Repr

/-- The text of a failure of the system, with the number the system gives to it. -/
def FileError.systemMessage (code : Nat) (text : String) : String :=
  text ++ " (os error " ++ toString code ++ ")"

/-- The text shown for a failed file operation. -/
def FileError.message : FileError → String
  | notFound => systemMessage 2 "No such file or directory"
  | alreadyExists => systemMessage 17 "File exists"
  | notADirectory => systemMessage 20 "Not a directory"
  | isADirectory => systemMessage 21 "Is a directory"
  | nameTooLong => systemMessage 36 "File name too long"
  | nulInName => "file name contained an unexpected NUL byte"
  | system code text => systemMessage code text

/-- What is written to a file. -/
inductive Content where
  | bytes (data : List UInt8)
  | picture (picture : Picture)
deriving DecidableEq, Repr

/-- The bytes a file with the given content holds. -/
def Content.toBytes : Content → List UInt8
  | bytes data => data
  | picture p => p.pngBytes

/-- The file operations. -/
class FileStore (m : Type → Type) where
  /-- The bytes of a file. -/
  readFile : String → ExceptT FileError m (List UInt8)
  /-- Writes a file, in place of one that is there. -/
  writeFile : String → Content → ExceptT FileError m Unit
  /-- Whether there is a file or a directory of that name. -/
  pathExists : String → ExceptT FileError m Bool
  /-- Creates a directory in one that is there. -/
  createDirectory : String → ExceptT FileError m Unit
  /-- Whether there is a directory of that name. -/
  isDirectory : String → m Bool

end VirtualPC
