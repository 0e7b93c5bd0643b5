import LayeredConfig.Entries
import LayeredConfig.Files.FileSystem

/-!
# Disks

Files and directories by their paths from the root of the disk, and the directory where relative
paths start. Unlike files in memory, a disk keeps a directory when the last file in it goes. Its
failures are reported by its surroundings and have no wording here, except where a path is looked up
that does not exist.
-/

namespace LayeredConfig

structure Disk where
  workingDirectory : String := "/"
  files : Entries (List UInt8) := []
  directories : List String := ["."]
  deriving Repr, Inhabited

namespace Disk

/-- The path from the root on. -/
def fromRoot (disk : Disk) (path : String) : String :=
  Path.withoutAnchor (Path.clean (Path.resolve disk.workingDirectory path))

/-- Makes a directory and those that lead to it. -/
def makeDirectory (path : String) (disk : Disk) : Disk :=
  let path := disk.fromRoot path
  { disk with
    directories := disk.directories ++
      (Path.ancestors path ++ [path]).filter (!disk.directories.contains ·) }

/-- A disk with nothing but the working directory. -/
def empty (workingDirectory : String) : Disk :=
  makeDirectory workingDirectory { workingDirectory }

/-- Stores a file, and makes the directories that lead to it. -/
def write (path : String) (content : List UInt8) (disk : Disk) : Disk :=
  let path := disk.fromRoot path
  { disk with
    files := disk.files.set path content
    directories := disk.directories ++ (Path.ancestors path).filter (!disk.directories.contains ·) }

/-- Takes a file away; its directory stays. -/
def remove (path : String) (disk : Disk) : Disk :=
  { disk with files := disk.files.filter fun entry => entry.1 != disk.fromRoot path }

/-- One step from a place on the disk; only directories lead anywhere. -/
def step (disk : Disk) (here : String) (segment : String) : Except Fault String :=
  if !disk.directories.contains here then
    .error (.foreign (if disk.files.has here then .notDirectory else .fileAbsent))
  else if segment.isEmpty || segment == "." then .ok here
  else if segment == ".." then .ok (if (Path.parent here).isEmpty then "." else Path.parent here)
  else .ok (Path.join here segment)

/-- Where a path leads to, which need not exist. -/
def locate (disk : Disk) (path : String) : Except Fault String :=
  let path := if Path.isAbsolute path then path else s!"{disk.workingDirectory}/{path}"
  (Path.segments path).foldlM disk.step "."

def isDirectory (disk : Disk) (path : String) : Except Fault Bool := do
  let place ← disk.locate path
  if disk.directories.contains place then return true
  else if disk.files.has place then return false
  else .error (.foreign .fileAbsent)

def contains (disk : Disk) (path : String) : Bool := (disk.isDirectory path).isOk

def read (disk : Disk) (path : String) : Except Fault (List UInt8) := do
  let place ← disk.locate path
  if disk.directories.contains place then .error (.foreign .isDirectory)
  else
    match disk.files.get? place with
    | some content => return content
    | none => .error (.foreign .fileAbsent)

def entries (disk : Disk) (path : String) : Except Fault (List (String × Bool)) := do
  let place ← disk.locate path
  if disk.directories.contains place then
    let paths := disk.files.keys ++ disk.directories
    let names := (paths.filterMap (Path.childName? place)).eraseDups.mergeSort fun a b => a ≤ b
    return names.map fun name => (name, disk.directories.contains (Path.join place name))
  else .error (.foreign (if disk.files.has place then .notDirectory else .fileAbsent))

/-- The largest number of segments of a path. -/
def depth (disk : Disk) : Nat :=
  ((disk.files.keys ++ disk.directories).map fun path => (Path.segments path).length).foldl max 0

/-- How a directory is shown. -/
def shownDirectory (root : String) : String := s!"DirectoryFS({Text.quoted (Path.tidy root)})"

/-- A directory of the disk as a filesystem; every path is cleaned first. -/
def fileSystem (disk : Disk) (root : String) : FileSystem :=
  let place (path : String) := Path.resolve root (Path.clean path)
  { shown := shownDirectory root
    depth := disk.depth
    contains := fun path => disk.contains (place path)
    isDirectory := fun path =>
      if disk.contains (place path) then disk.isDirectory (place path)
      else .error (.pathFault .fileAbsent path)
    read := fun path => disk.read (place path)
    entries := fun path => disk.entries (place path) }

end Disk

/-- Where files are looked for: in a given filesystem, or in a directory of the disk there is. -/
inductive Place
  | given (fs : FileSystem)
  | directory (root : String)

namespace Place

/-- The filesystem of a place. -/
def on (disk : Disk) : Place → FileSystem
  | given fs => fs
  | directory root => disk.fileSystem root

def shown : Place → String
  | given fs => fs.shown
  | directory root => Disk.shownDirectory root

end Place

end LayeredConfig
