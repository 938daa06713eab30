/-
VirtualPC/Files/Directory.lean

Creating a directory together with those above it.  The directory itself is tried first, and
those above it only if that fails for want of one of them; so a file in the way is noticed
where the first attempt meets it, or else where a missing directory would have to be.
-/
import VirtualPC.Files.Path
import VirtualPC.Files.Store

namespace VirtualPC.FileStore

variable {m : Type → Type} [Monad m] [FileStore m]

/-- Creates a directory, unless there is one of that name. -/
def ensureDirectory (name : String) : ExceptT FileError m Unit :=
  tryCatch (createDirectory name) fun cause => do
    unless ← (isDirectory name : m Bool) do throw cause

/-- Creates the first of some directories; the others are those above it, the nearest first,
and are created as far as they are missing. -/
def ensureChain : List String → ExceptT FileError m Unit
  | [] => return
  | name :: above =>
    tryCatch (ensureDirectory name) fun cause => do
      if cause = .notFound then
        ensureChain above
        ensureDirectory name
      else throw cause

/-- Creates a directory and those above it, as far as they are missing.  A name without
components leads to a directory that is there. -/
def createDirectories (name : String) : ExceptT FileError m Unit :=
  ensureChain (if (Path.ofName name).isEmpty then [] else name :: Path.above name)

end VirtualPC.FileStore
