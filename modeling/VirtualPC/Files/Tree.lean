/-
VirtualPC/Files/Tree.lean

A file system as a value: a map from paths to files and directories.  The empty path is the
root.  The working directory is below it under names that no component can have, so that it
can be left by `..` but not be entered from above.  Names are resolved one component at a
time, and a component is entered only if it is a directory.
-/
import VirtualPC.Files.Path
import VirtualPC.Files.Store

namespace VirtualPC

/-- What a path leads to. -/
inductive FileNode where
  | directory
  | file (content : Content)
deriving DecidableEq, Repr

/-- A map from paths to files and directories; the working directory and those above it are
always there. -/
structure FileTree where
  nodes : List (Path × FileNode)
deriving DecidableEq, Repr

namespace FileTree

/-- The working directory. -/
def home : Path := ["", ""]

/-- The tree in which only the working directory and those above it exist. -/
def empty : FileTree := ⟨[]⟩

/-- What every system has outside the working directory: a null file, which is empty, and a
directory for temporary files. -/
def system : FileTree :=
  ⟨[(["dev", "null"], .file (.bytes [])), (["dev"], .directory), (["tmp"], .directory)]⟩

/-- What a path leads to. -/
def lookup (t : FileTree) (p : Path) : Option FileNode :=
  if p.isPrefixOf home then some .directory else t.nodes.lookup p

/-- The tree with another node at a path. -/
def insert (t : FileTree) (p : Path) (node : FileNode) : FileTree :=
  ⟨(p, node) :: t.nodes.filter fun entry => entry.1 != p⟩

/-- The path reached from a directory by one component. -/
def enter (dir : Path) (component : String) : Path :=
  if component = "." then dir
  else if component = ".." then dir.dropLast
  else dir ++ [component]

/-- The most bytes in a component. -/
def maxComponentBytes : Nat := 255

/-- The most bytes in a name. -/
def maxNameBytes : Nat := 4095

/-- Refuses a name that is empty, too long or broken. -/
def checkName (name : String) : Except FileError Unit :=
  if name.isEmpty then .error .notFound
  else if '\x00' ∈ name.toList then .error .nulInName
  else if maxNameBytes < name.utf8ByteSize then .error .nameTooLong
  else .ok ()

/-- What an entry of a directory is. -/
def entry (t : FileTree) (dir : Path) (component : String) :
    Except FileError (Option FileNode) :=
  if maxComponentBytes < component.utf8ByteSize then .error .nameTooLong
  else .ok (t.lookup (enter dir component))

/-- Follows components from a directory.  All but the last have to lead to directories. -/
def walk (t : FileTree) (dir : Path) : Path → Except FileError (Path × FileNode)
  | [] => .ok (dir, .directory)
  | component :: rest =>
    match t.entry dir component with
    | .error e => .error e
    | .ok none => .error .notFound
    | .ok (some .directory) => t.walk (enter dir component) rest
    | .ok (some node) =>
      if rest.isEmpty then .ok (enter dir component, node) else .error .notADirectory

/-- The directory a name starts from. -/
def start (name : String) : Path := if Path.isAbsolute name then [] else home

/-- What a name leads to, and by which path. -/
def resolve (t : FileTree) (name : String) : Except FileError (Path × FileNode) := do
  checkName name
  match ← t.walk (start name) (Path.ofName name) with
  | (p, .file content) =>
    if Path.endsWithSlash name then throw .notADirectory else return (p, .file content)
  | (p, .directory) => return (p, .directory)

/-- The bytes of the file of a name. -/
def readFile (t : FileTree) (name : String) : Except FileError (List UInt8) := do
  match ← t.resolve name with
  | (_, .file content) => return content.toBytes
  | (_, .directory) => throw .isADirectory

/-- Whether a name leads anywhere. -/
def pathExists (t : FileTree) (name : String) : Except FileError Bool :=
  match t.resolve name with
  | .ok _ => .ok true
  | .error .notFound => .ok false
  | .error e => .error e

/-- Whether a name leads to a directory. -/
def isDirectory (t : FileTree) (name : String) : Bool :=
  match t.resolve name with
  | .ok (_, .directory) => true
  | _ => false

/-- The directory that the last component of a name is looked for in, and that component; none
for the name of the root. -/
def place (t : FileTree) (name : String) : Except FileError (Option (Path × String)) := do
  checkName name
  match (Path.ofName name).getLast? with
  | none => return none
  | some last =>
    match ← t.walk (start name) (Path.ofName name).dropLast with
    | (_, .file _) => throw .notADirectory
    | (dir, .directory) => return some (dir, last)

/-- Whether a component stays where it is or goes up. -/
def isDots (component : String) : Bool := component == "." || component == ".."

/-- The tree with a file of the given name and content.  The directory it is in has to be
there. -/
def writeFile (t : FileTree) (name : String) (content : Content) :
    Except FileError FileTree := do
  match ← t.place name with
  | none => throw .isADirectory
  | some (dir, last) =>
    if isDots last || Path.endsWithSlash name then throw .isADirectory
    match ← t.entry dir last with
    | some .directory => throw .isADirectory
    | _ => return t.insert (dir ++ [last]) (.file content)

/-- The tree with a directory of the given name.  The directory it is in has to be there, and
the name must not be taken. -/
def createDirectory (t : FileTree) (name : String) : Except FileError FileTree := do
  match ← t.place name with
  | none => throw .alreadyExists
  | some (dir, last) =>
    if isDots last then throw .alreadyExists
    match ← t.entry dir last with
    | some _ => throw .alreadyExists
    | none => return t.insert (dir ++ [last]) .directory

/-- The files and directories below the working directory, by their paths from there. -/
def listing (t : FileTree) : List (Path × FileNode) :=
  t.nodes.filterMap fun (p, node) =>
    if home.isPrefixOf p then some (p.drop home.length, node) else none

/-- The tree after an attempt, or as it was. -/
def attempt (t : FileTree) : Except FileError FileTree → Except FileError Unit × FileTree
  | .ok after => (.ok (), after)
  | .error e => (.error e, t)

end FileTree

/-- Files held as a value. -/
instance : FileStore (StateM FileTree) where
  readFile name := ExceptT.mk fun t => (t.readFile name, t)
  writeFile name content := ExceptT.mk fun t => t.attempt (t.writeFile name content)
  pathExists name := ExceptT.mk fun t => (t.pathExists name, t)
  createDirectory name := ExceptT.mk fun t => t.attempt (t.createDirectory name)
  isDirectory name := fun t => (t.isDirectory name, t)

end VirtualPC
