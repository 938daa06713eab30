/-
VirtualPC/Files/Path.lean

File names as a user writes them.  Slashes separate components and repeated ones count once.
The component `.` stays where it is and `..` goes one directory up; a slash at the end asks
for a directory.
-/

namespace VirtualPC

/-- The components of a file name. -/
abbrev Path := List String

namespace Path

/-- The texts between the slashes of a name. -/
def splitSlashes : List Char → List (List Char)
  | [] => [[]]
  | c :: rest =>
    if c = '/' then [] :: splitSlashes rest
    else
      match splitSlashes rest with
      | [] => [[c]]
      | first :: others => (c :: first) :: others

/-- The components of a name. -/
def ofName (name : String) : Path :=
  ((splitSlashes name.toList).filter fun c => !c.isEmpty).map String.ofList

/-- Whether a name ends with a slash. -/
def endsWithSlash (name : String) : Bool := name.toList.getLast? == some '/'

/-- The name of `file` in the directory `dir`. -/
def join (dir file : String) : String :=
  if dir.isEmpty || endsWithSlash dir then dir ++ file else dir ++ "/" ++ file

/-- The components of a name that do not stay where they are. -/
def moves (p : Path) : Path := p.filter (· != ".")

/-- Whether a name starts at the root. -/
def isAbsolute (name : String) : Bool := name.toList.head? == some '/'

/-- The name with the given components. -/
def toName (absolute : Bool) (p : Path) : String :=
  (if absolute then "/" else "") ++ "/".intercalate p

/-- The paths to each of the components, given from the last one on, that does not stay where
it is. -/
def chain : (reversed : List String) → List Path
  | [] => []
  | last :: before =>
    if last = "." then chain before else (last :: before).reverse :: chain before

/-- The names of the directories on the way to what a name leads to, the nearest first. -/
def above (name : String) : List String :=
  (chain (((ofName name).reverse.dropWhile (· == ".")).drop 1)).map (toName (isAbsolute name))

/-- The last component of a name, unless it goes up. -/
def fileName? (name : String) : Option String :=
  match (ofName name).moves.getLast? with
  | some ".." => none
  | last => last

/-- What follows the last dot of a file name that has something before it. -/
def extension? (name : String) : Option String := do
  let file ← fileName? name
  let reversed := file.toList.reverse
  let ending := reversed.takeWhile (· != '.')
  match reversed.dropWhile (· != '.') with
  | _ :: _ :: _ => some (String.ofList ending.reverse)
  | _ => none

end Path

end VirtualPC
