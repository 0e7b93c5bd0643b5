import LayeredConfig.Files.Disk
import LayeredConfig.Log
import LayeredConfig.Value.Shown

/-!
# File groups

The paths that are looked for at one place: files, directories, and patterns. Outside of exact
groups, whatever is missing or denied is passed over with a remark in the log.
-/

namespace LayeredConfig

structure FileGroup where
  place : Place
  paths : List String := []
  /-- Whether directories inside directories are searched. -/
  recurse : Bool := false
  /-- Whether each path has to be a file that can be decoded. -/
  exact : Bool := false
  /-- Whether later groups are left out once this one yields something. -/
  halt : Bool := false
  /-- The extension that all files are taken to have, if any is given. -/
  extension : String := ""

namespace FileGroup

/-- The group, if all its paths are valid; without paths, the whole place is meant. -/
def checked (group : FileGroup) : Except Fault FileGroup :=
  let paths := if group.paths.isEmpty then ["."] else group.paths
  match paths.find? fun path => !Path.isValid path with
  | some path => .error (.invalidPath path)
  | none => .ok { group with paths }

/-- The group as it is shown. -/
def shown (group : FileGroup) : String :=
  let paths := Value.tuple (group.paths.map .text)
  let flag (b : Bool) := (Value.bool b).literal
  s!"FileGroup(fs={group.place.shown}, paths={paths}, recurse={flag group.recurse}, " ++
    s!"exact={flag group.exact}, halt={flag group.halt}, as_ext={Text.quoted group.extension})"

/-- A place that has to be given. -/
def requirePlace (place : Option Place) : Except Fault Place :=
  match place with
  | some place => .ok place
  | none => .error .filesystemMissing

/-- The remark that something about a file was passed over. -/
def skipped (name reason : String) (details : Entries Value) : Event :=
  .about .debug "record_skipped" "file" (some name) (("reason", .text reason) :: details)

/-- Passes something over. -/
def skip {α : Type} (name reason : String) (details : Entries Value) (instead : α) : Traced α := do
  Traced.emit (skipped name reason details)
  return instead

/-- The files below a directory, at most `levels` directories deep. -/
def walk (fs : FileSystem) (recurse : Bool) : (levels : Nat) → String → Traced (List String)
  | 0, _ => return []
  | levels + 1, directory =>
    match fs.entries directory with
    | .ok entries => do
      let found ← entries.mapM fun (name, isDirectory) =>
        let child := Path.join directory name
        if !isDirectory then Traced.pure [child]
        else if recurse then walk fs recurse levels child
        else Traced.pure []
      return found.flatten
    | .error fault =>
      match fault.category with
      | .permissionDenied | .fileAbsent => skip directory "unlistable directory" [] []
      | category =>
        .fail (if category.isFilesystem then .cannotList directory fault else fault)

/-- The files that a path stands for. -/
def filesAt (group : FileGroup) (fs : FileSystem) (path : String) : Traced (List String) :=
  match fs.isDirectory path with
  | .ok false => return [path]
  | .ok true =>
    if group.exact then .fail (.directoryNotFile path)
    else walk fs group.recurse (fs.depth + 1) path
  | .error fault =>
    match fault.category with
    | .permissionDenied => skip path "permission denied" [] []
    | .fileAbsent =>
      if group.exact then .fail (.requiredFileMissing path) else skip path "missing" [] []
    | category =>
      .fail (if category.isFilesystem then .cannotInspect path fault else fault)

/-- The paths that a pattern stands for; one that fits nothing stands for itself. -/
def candidates (group : FileGroup) (fs : FileSystem) (path : String) : Except Fault (List String) :=
  let pattern := Path.clean path
  if group.exact then .ok [pattern]
  else return match ← fs.glob pattern with
    | [] => [pattern]
    | found => found

/-- All files of a group, in order. -/
def files (group : FileGroup) (fs : FileSystem) : Traced (List String) := do
  let found ← group.paths.mapM fun path => do
    let candidates ← group.candidates fs path
    return (← candidates.mapM (group.filesAt fs)).flatten
  return found.flatten.mergeSort fun a b => a ≤ b

end FileGroup

end LayeredConfig
