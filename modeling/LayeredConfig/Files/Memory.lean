import LayeredConfig.Entries
import LayeredConfig.Files.FileSystem

/-!
# Files in memory

Files under cleaned paths. The directories are those that lead to files. Paths that are marked as
unreadable exist but are not handed out.
-/

namespace LayeredConfig

structure MemoryFiles where
  files : Entries (List UInt8) := []
  unreadable : List String := []
  deriving Repr, Inhabited

namespace MemoryFiles

/-- Files from paths as they are written. -/
def ofList (files : List (String × List UInt8)) (unreadable : List String) : MemoryFiles where
  files := Entries.ofPairs (files.map fun (path, content) => (Path.clean path, content))
  unreadable := unreadable.map Path.clean

def directories (memory : MemoryFiles) : List String :=
  "." :: memory.files.keys.flatMap Path.ancestors

def isDirectory (memory : MemoryFiles) (path : String) : Except Fault Bool :=
  if memory.directories.contains path then .ok true
  else if memory.files.has path then .ok false
  else .error (.pathFault .fileAbsent path)

def read (memory : MemoryFiles) (path : String) : Except Fault (List UInt8) :=
  if memory.directories.contains path then .error (.pathFault .isDirectory path)
  else if memory.unreadable.contains path then .error (.pathFault .permissionDenied path)
  else
    match memory.files.get? path with
    | some content => .ok content
    | none => .error (.pathFault .fileAbsent path)

/-- The names directly inside a directory, in order. -/
def names (memory : MemoryFiles) (directory : String) : List String :=
  let paths := memory.files.keys ++ memory.directories
  (paths.filterMap (Path.childName? directory)).eraseDups.mergeSort fun a b => a ≤ b

def entries (memory : MemoryFiles) (path : String) : Except Fault (List (String × Bool)) :=
  if memory.unreadable.contains path then .error (.pathFault .permissionDenied path)
  else if memory.directories.contains path then
    .ok ((memory.names path).map fun name =>
      (name, memory.directories.contains (Path.join path name)))
  else if memory.files.has path then .error (.pathFault .notDirectory path)
  else .error (.pathFault .fileAbsent path)

/-- The largest number of segments of a path. -/
def depth (memory : MemoryFiles) : Nat :=
  (memory.files.keys.map fun path => (Path.segments path).length).foldl max 0

def shown (memory : MemoryFiles) : String :=
  let names := (memory.files.keys.mergeSort fun a b => a ≤ b).map Text.quoted
  "MemoryFS([" ++ ", ".intercalate names ++ "])"

/-- The files as a filesystem; every path is cleaned first. -/
def fileSystem (memory : MemoryFiles) : FileSystem where
  shown := memory.shown
  depth := memory.depth
  contains path :=
    memory.files.has (Path.clean path) || memory.directories.contains (Path.clean path)
  isDirectory path := memory.isDirectory (Path.clean path)
  read path := memory.read (Path.clean path)
  entries path := memory.entries (Path.clean path)

end MemoryFiles

end LayeredConfig
