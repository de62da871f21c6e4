import Roadbook.Text.Blank

/-!
# Disks

A disk is a tree of folders and text files. A path is followed from the root, one name at a time: an
empty name and a single dot stay where they are, two dots go up, and every name but the last one has
to be that of a folder. Names and paths have a greatest length. `Disk.read` and `Disk.write` take a
whole file or nothing.
-/

namespace Roadbook

/-- The names of the folders on the way to a place, and its own name. -/
abbrev Place := List String

inductive Entry where
  | file (text : String)
  | folder
  deriving DecidableEq, Repr

/-- What is on a disk; the root is not listed and is a folder. -/
structure Disk where
  entries : List (Place × Entry)
  deriving DecidableEq, Repr

inductive DiskFault where
  | notFound
  /-- A folder stands where a file is wanted. -/
  | isFolder
  /-- A file stands where a folder is wanted. -/
  | notFolder
  | nameTooLong
  /-- The path has a character that no path may have. -/
  | notPath
  deriving DecidableEq, Repr

/-- Where a path leads. -/
inductive Target where
  | file (place : Place) (text : String)
  | folder (place : Place)
  /-- Nothing is there, in a folder that is. -/
  | vacant (place : Place)
  deriving DecidableEq, Repr

/-- The names of a path in order. -/
def pathNames (path : String) : List String := (splitAt '/' path.toList).map String.ofList

/-- A name that leads nowhere else. -/
def stays (name : String) : Bool := name == "" || name == "."

/-- The path of the folder that holds what a path names. -/
def parentPath (path : String) : String :=
  let names := ((pathNames path).reverse.dropWhile stays).drop 1
  "/".intercalate (names.dropWhile stays).reverse

/-- The path of something in a folder. A path from the root stays what it is. -/
def pathIn (folder path : String) : String :=
  if path.startsWith "/" || folder == "" then path
  else if folder.endsWith "/" then folder ++ path
  else folder ++ "/" ++ path

namespace Disk

/-- How many bytes a name may have. -/
def longestName : Nat := 255

/-- How many bytes a path may have. -/
def longestPath : Nat := 4095

def empty : Disk := ⟨[]⟩

def entry? (disk : Disk) (place : Place) : Option Entry :=
  if place = [] then some .folder
  else (disk.entries.find? fun e => e.1 = place).map (·.2)

def put (disk : Disk) (place : Place) (entry : Entry) : Disk :=
  ⟨(place, entry) :: disk.entries.filter fun e => e.1 ≠ place⟩

/-- Follows names from a folder. -/
def walk (disk : Disk) (folder : Place) : List String → Except DiskFault Target
  | [] => .ok (.folder folder)
  | name :: names =>
    if stays name then disk.walk folder names
    else if name = ".." then disk.walk folder.dropLast names
    else if longestName < name.utf8ByteSize then .error .nameTooLong
    else
      let place := folder ++ [name]
      match disk.entry? place with
      | some .folder => disk.walk place names
      | some (.file text) => if names.isEmpty then .ok (.file place text) else .error .notFolder
      | none => if names.isEmpty then .ok (.vacant place) else .error .notFound

def find (disk : Disk) (path : String) : Except DiskFault Target :=
  if path.toList.contains '\x00' then .error .notPath
  else if path.isEmpty then .error .notFound
  else if longestPath < path.utf8ByteSize then .error .nameTooLong
  else disk.walk [] (pathNames path)

/-- The text of a file. -/
def read (disk : Disk) (path : String) : Except DiskFault String :=
  match disk.find path with
  | .ok (.file _ text) => .ok text
  | .ok (.folder _) => .error .isFolder
  | .ok (.vacant _) => .error .notFound
  | .error e => .error e

/-- The text of a file, if there is one. -/
def readIfPresent (disk : Disk) (path : String) : Except DiskFault (Option String) :=
  match disk.read path with
  | .ok text => .ok (some text)
  | .error .notFound => .ok none
  | .error e => .error e

/-- Whether a path leads to something. -/
def has (disk : Disk) (path : String) : Bool :=
  match disk.find path with
  | .ok (.file _ _) | .ok (.folder _) => true
  | .ok (.vacant _) | .error _ => false

/-- Makes a text the whole content of a file, which is made if need be. -/
def write (disk : Disk) (path text : String) : Except DiskFault Disk :=
  match disk.find path with
  | .ok (.file place _) | .ok (.vacant place) => .ok (disk.put place (.file text))
  | .ok (.folder _) => .error .isFolder
  | .error e => .error e

/-- Makes the folders that some names lead through, unless they are there. -/
def makeFolders (disk : Disk) (folder : Place) : List String → Except DiskFault Disk
  | [] => .ok disk
  | name :: names =>
    if name.toList.contains '\x00' then .error .notPath
    else match disk.walk folder [name] with
      | .ok (.folder place) => disk.makeFolders place names
      | .ok (.vacant place) => (disk.put place .folder).makeFolders place names
      | .ok (.file _ _) => .error .notFolder
      | .error e => .error e

/-- Makes the folders on the way to what a path names, unless they are there. -/
def makeParents (disk : Disk) (path : String) : Except DiskFault Disk :=
  let parent := parentPath path
  if longestPath < parent.utf8ByteSize then .error .nameTooLong
  else disk.makeFolders [] (pathNames parent)

/-- A disk with another file on it, and the folders on the way to it. -/
def add (disk : Disk) (path text : String) : Except DiskFault Disk := do
  (← disk.makeParents path).write path text

end Disk

end Roadbook
