-- A disk: directories and files, found by walking along a path. Paths are texts
-- that are never normalized.

namespace ChannelProtocol.Project

/-! ## Paths -/

def splitSlashes : List Char → List (List Char)
  | [] => [[]]
  | c :: rest =>
    if c = '/' then [] :: splitSlashes rest
    else
      match splitSlashes rest with
      | part :: parts => (c :: part) :: parts
      | [] => [[c]]

def pathParts (path : String) : List String := (splitSlashes path.toList).map String.ofList

def isAbsolute (path : String) : Bool := path.toList.head? == some '/'

/-- A path behind a directory. An absolute path stands for itself. -/
def join (directory path : String) : String :=
  if isAbsolute path then path
  else if directory = "" ∨ directory.toList.getLast? = some '/' then directory ++ path
  else directory ++ "/" ++ path

/-- Whether a part of a path does not lead anywhere. -/
def isIdlePart (part : String) : Bool := part == "" || part == "."

/-- The name of the file at the end of a path, if it ends in a name. -/
def fileName? (path : String) : Option String :=
  match ((pathParts path).filter fun part => !isIdlePart part).getLast? with
  | some name => if name = ".." then none else some name
  | none => none

/-- The name of the file at the end of a path, or the whole path. -/
def displayName (path : String) : String := (fileName? path).getD path

/-! ## Looking at a path -/

inductive ReadError where
  | missing
  | notDirectory
  | isDirectory
  | notText
  deriving DecidableEq, Repr

def ReadError.text : ReadError → String
  | .missing => "No such file or directory (os error 2)"
  | .notDirectory => "Not a directory (os error 20)"
  | .isDirectory => "Is a directory (os error 21)"
  | .notText => "stream did not contain valid UTF-8"

/-- What stands at the end of a path. -/
inductive Lookup where
  | missing
  /-- The path goes on behind a file. -/
  | blocked
  | directory
  | binary
  | text (content : String)
  deriving DecidableEq, Repr

namespace Lookup

def isThere : Lookup → Bool
  | .missing | .blocked => false
  | .directory | .binary | .text _ => true

def read : Lookup → Except ReadError String
  | .missing => .error .missing
  | .blocked => .error .notDirectory
  | .directory => .error .isDirectory
  | .binary => .error .notText
  | .text content => .ok content

end Lookup

/-! ## Disks -/

inductive Node where
  | directory
  | binary
  | text (content : String)
  deriving DecidableEq, Repr

/-- A place on a disk: the names that lead to it from the root directory. -/
abbrev Place := List String

/-- A disk, and the directory in which relative paths start. -/
structure Disk where
  node? : Place → Option Node
  current : Place

namespace Disk

/-- What stands at a place. The root directory is always there. -/
def at? (disk : Disk) (place : Place) : Option Node :=
  match place with
  | [] => some .directory
  | _ => disk.node? place

/-- Walks on from a place along the parts of a path, each of which leads on only from a
directory. -/
def walk (disk : Disk) (place : Place) : List String → Except ReadError Place
  | [] => .ok place
  | part :: rest =>
    match disk.at? place with
    | some .directory =>
      if isIdlePart part then disk.walk place rest
      else if part = ".." then disk.walk place.dropLast rest
      else disk.walk (place ++ [part]) rest
    | some _ => .error .notDirectory
    | none => .error .missing

def place (disk : Disk) (path : String) : Except ReadError Place :=
  if path = "" then .error .missing
  else disk.walk (if isAbsolute path then [] else disk.current) (pathParts path)

def lookup (disk : Disk) (path : String) : Lookup :=
  match disk.place path with
  | .error .notDirectory => .blocked
  | .error _ => .missing
  | .ok place =>
    match disk.at? place with
    | none => .missing
    | some .directory => .directory
    | some .binary => .binary
    | some (.text content) => .text content

def set (disk : Disk) (place : Place) (node : Option Node) : Disk :=
  { disk with node? := fun other => if other = place then node else disk.node? other }

def write (disk : Disk) (path content : String) : Disk :=
  match disk.place path with
  | .ok place => disk.set place (some (.text content))
  | .error _ => disk

end Disk

end ChannelProtocol.Project
