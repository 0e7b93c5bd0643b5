import LayeredConfig.Fault
import LayeredConfig.Path.Clean
import LayeredConfig.Path.Glob

/-!
# Filesystems

A filesystem is known by what it answers. Paths are relative, with slashes between their segments,
and a single dot stands for the root. What is missing, denied or broken is told by the category of
a fault. Wildcards are matched segment by segment, so that none of them crosses a slash.
-/

namespace LayeredConfig

structure FileSystem where
  /-- How the filesystem is shown. -/
  shown : String
  /-- No path has more segments than this. -/
  depth : Nat
  contains : String → Bool
  isDirectory : String → Except Fault Bool
  read : String → Except Fault (List UInt8)
  /-- The names directly inside a directory, and which of them are directories. -/
  entries : String → Except Fault (List (String × Bool))

namespace FileSystem

/-! ## Wildcards -/

/-- Whether a directory that answers with a fault of the category adds nothing to a match. -/
def isBarren : Category → Bool
  | .fileAbsent | .notDirectory | .permissionDenied => true
  | _ => false

/-- The names inside `base` that fit a pattern. -/
def globNames (fs : FileSystem) (pattern base : String) : Except Fault (List String) :=
  match fs.entries base with
  | .ok entries =>
    .ok ((entries.filter fun entry => Path.matchesPattern pattern entry.1).map fun entry =>
      Path.join base entry.1)
  | .error fault => if isBarren fault.category then .ok [] else .error fault

/-- The paths one segment further on. -/
def globSegment (fs : FileSystem) (bases : List String) (segment : String) :
    Except Fault (List String) :=
  if Path.hasMagic segment then return (← bases.mapM (fs.globNames segment)).flatten
  else .ok ((bases.map fun base => Path.join base segment).filter fs.contains)

/-- The paths that fit a pattern, in order; without wildcards, the path itself if it exists. -/
def glob (fs : FileSystem) (pattern : String) : Except Fault (List String) :=
  let pattern := Path.clean pattern
  if Path.hasMagic pattern then
    return ((← (Path.segments pattern).foldlM fs.globSegment ["."]).mergeSort fun a b => a ≤ b)
  else .ok (if fs.contains pattern then [pattern] else [])

/-! ## Failures -/

inductive Access
  | inspect
  | list
  | read
  deriving DecidableEq, Repr

inductive Failure
  | broken
  | missing
  | denied
  deriving DecidableEq, Repr

def Failure.fault (path : String) : Failure → Fault
  | broken => .inputOutput path
  | missing => .pathFault .fileAbsent path
  | denied => .pathFault .permissionDenied path

/-- Which accesses to which paths fail, and how. -/
abbrev Failures := List ((Access × String) × Failure)

/-- An answer, unless the access fails. -/
def guarded {α : Type} (failures : Failures) (access : Access) (answer : String → Except Fault α)
    (path : String) : Except Fault α :=
  match failures.lookup (access, path) with
  | some failure => .error (failure.fault path)
  | none => answer path

/-- The filesystem, with some accesses failing. -/
def failing (failures : Failures) (fs : FileSystem) : FileSystem :=
  { fs with
    isDirectory := guarded failures .inspect fs.isDirectory
    read := guarded failures .read fs.read
    entries := guarded failures .list fs.entries }

end FileSystem

end LayeredConfig
