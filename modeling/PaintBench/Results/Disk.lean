import PaintBench.Results.FileTree
import PaintBench.Text.Search

/-!
# Files and directories

`Disk` is a tree of directories and text files, with the rules of a file system that
result files meet. A path is resolved part by part from a working directory; every part
but the last has to name a directory. `createDirs` makes a directory and the missing ones
above it, `write` replaces the content of a file in an existing directory.
-/

namespace PaintBench

/-- What stands at a place. -/
inductive DiskEntry where
  | directory
  | file (content : String)
deriving DecidableEq, Repr

/-- Why a file operation fails. -/
inductive DiskFault where
  | notFound
  | exists
  | notADirectory
  | isADirectory
  | notPermitted
  | nameTooLong
  /-- a path with a NUL character -/
  | nulInName
deriving DecidableEq, Repr

/-- The message of a failing file operation. -/
def DiskFault.message : DiskFault → String
  | notFound => "No such file or directory (os error 2)"
  | «exists» => "File exists (os error 17)"
  | notADirectory => "Not a directory (os error 20)"
  | isADirectory => "Is a directory (os error 21)"
  | notPermitted => "Permission denied (os error 13)"
  | nameTooLong => "File name too long (os error 36)"
  | nulInName => "file name contained an unexpected NUL byte"

/-! ## Paths -/

/-- Whether a path starts at the root. -/
def isAbsolute (path : String) : Bool :=
  path.toList.head? = some '/'

/-- A path joined to a directory; a path from the root stands for itself. -/
def joinPath (directory path : String) : String :=
  if isAbsolute path || directory.isEmpty then path
  else if directory.toList.getLast? = some '/' then directory ++ path
  else directory ++ "/" ++ path

/-- The parts of a path between slashes, without the empty ones. -/
def rawParts (path : String) : List String :=
  ((Text.splitOn '/' path.toList).map String.ofList).filter (· != "")

/-- The names of a path. Single dots are no names. -/
def pathParts (path : String) : List String :=
  (rawParts path).filter (· != ".")

/-- Whether a path ends in a single dot, and so means something only where it leads to a
directory. -/
def endsInDot (path : String) : Bool :=
  (rawParts path).getLast? = some "."

/-- Whether a path ends in a slash. -/
def endsInSlash (path : String) : Bool :=
  path.toList.getLast? = some '/'

/-- How many bytes of a name are too many. -/
def nameLimit : Nat := 256

/-- How many bytes of a path are too many. -/
def pathLimit : Nat := 4096

/-- Why a path cannot lead anywhere, if so. -/
def pathFault? (path : String) : Option DiskFault :=
  if '\x00' ∈ path.toList then some .nulInName
  else if pathLimit ≤ Text.byteCount path.toList then some .nameTooLong
  else none

/-- Why a name cannot name anything, if so. -/
def nameFault? (name : String) : Option DiskFault :=
  if nameLimit ≤ Text.byteCount name.toList then some .nameTooLong else none

/-! ## Operations -/

/-- Files and directories, and the directory where relative paths start. -/
structure Disk where
  workingDirectory : Place
  root : FileTree

namespace Disk

/-- A disk with nothing but the way to its working directory. -/
def empty (workingDirectory : Place) : Disk where
  workingDirectory
  root := FileTree.empty.put workingDirectory FileTree.empty

/-- What stands at a place. -/
def entry? (d : Disk) (place : Place) : Option DiskEntry :=
  (d.root.find? place).map fun
    | .file content => .file content
    | .directory _ => .directory

/-- Put a tree at a place. -/
def set (d : Disk) (place : Place) (t : FileTree) : Disk :=
  { d with root := t.put place d.root }

/-- The directory that the parts of a path lead to from a place. -/
def walk (d : Disk) (place : Place) : List String → Except DiskFault Place
  | [] => .ok place
  | "." :: rest => walk d place rest
  | ".." :: rest => walk d place.dropLast rest
  | name :: rest =>
    match nameFault? name, d.entry? (place ++ [name]) with
    | some fault, _ => .error fault
    | none, none => .error .notFound
    | none, some (.file _) => .error .notADirectory
    | none, some .directory => walk d (place ++ [name]) rest

/-- Where the parts of a path start. -/
def start (d : Disk) (path : String) : Place :=
  if isAbsolute path then [] else d.workingDirectory

/-- The place that a path leads to, and what is there. A path that ends in a slash leads
to a directory. -/
def target (d : Disk) (path : String) : Except DiskFault (Place × Option DiskEntry) := do
  let parts := rawParts path
  match pathFault? path, parts.getLast? with
  | some fault, _ => throw fault
  | none, none => return (d.start path, some .directory)
  | none, some name =>
    if endsInSlash path || name = "." || name = ".." then
      return (← d.walk (d.start path) parts, some .directory)
    else
      let directory ← d.walk (d.start path) parts.dropLast
      match nameFault? name with
      | some fault => throw fault
      | none => return (directory ++ [name], d.entry? (directory ++ [name]))

/-- The directory that names lead to from a place, made where it is missing, with the
directories on the way. What was made stays when a later name fails. A file on the way is
no directory; at the end of it, or below a directory just made, it is in the way. -/
def makeWay (d : Disk) (place : Place) (fresh : Bool) :
    List String → Except DiskFault Place × Disk
  | [] => (.ok place, d)
  | ".." :: rest => makeWay d place.dropLast fresh rest
  | name :: rest =>
    match nameFault? name, d.entry? (place ++ [name]) with
    | some fault, _ => (.error fault, d)
    | none, none => makeWay (d.set (place ++ [name]) .empty) (place ++ [name]) true rest
    | none, some .directory => makeWay d (place ++ [name]) fresh rest
    | none, some (.file _) =>
      (.error (if fresh || rest.isEmpty then .exists else .notADirectory), d)

/-- Make the directory of a path and the missing ones above it. Before a single dot at the
end the directory has to be there, and only those above it are made. -/
def createDirs (d : Disk) (path : String) : Except DiskFault Unit × Disk :=
  let origin := d.start path
  let names := pathParts path
  match pathFault? path with
  | some fault => (.error fault, d)
  | none =>
    if endsInDot path then
      match d.walk origin names with
      | .ok _ => (.ok (), d)
      | .error .notFound =>
        let (way, made) := d.makeWay origin false names.dropLast
        (way.bind fun place => (made.walk place names.getLast?.toList).map fun _ => (), made)
      | .error fault => (.error fault, d)
    else
      let (way, made) := d.makeWay origin false names
      (way.map fun _ => (), made)

/-- Replace the content of a file, or make the file. -/
def write (d : Disk) (path content : String) : Except DiskFault Disk := do
  match ← d.target path with
  | (_, some .directory) => throw .isADirectory
  | (place, _) => return d.set place (.file content)

/-- The disk with a file and the directories above it, if there is room for them. -/
def withFile (d : Disk) (path content : String) : Disk :=
  let above := "/".intercalate (rawParts path).dropLast
  let directory := if isAbsolute path then "/" ++ above else above
  let (_, made) := d.createDirs directory
  (made.write path content).toOption.getD d

/-- The content of a file. -/
def read? (d : Disk) (path : String) : Option String :=
  match d.target path with
  | .ok (_, some (.file content)) => some content
  | _ => none

/-- Whether a program is named by its path, and not by a name to be looked up. -/
def isProgramPath (program : String) : Bool :=
  program.toList.contains '/' || program = "." || program = ".."

/-- Why a program cannot be run. No file is a program, and no name is one. -/
def programFault (d : Disk) (program : String) : DiskFault :=
  if isProgramPath program then
    match d.target program with
    | .error fault => fault
    | .ok (_, none) => .notFound
    | .ok (_, some _) => .notPermitted
  else (nameFault? program).getD .notFound

/-- All files by their place. -/
def files (d : Disk) : List (Place × String) :=
  d.root.files

/-- The files below the working directory, by the rest of their place. -/
def filesBelow (d : Disk) : List (Place × String) :=
  ((d.root.find? d.workingDirectory).map FileTree.files).getD []

end Disk

end PaintBench
