import LayeredConfig.Files.Group
import LayeredConfig.Source.Buffer

/-!
# Collecting files

File groups become records: each file is read, the extension picks the decoder, and the base name is
the name of the record. The first halting group that yields a record ends the collection.
-/

namespace LayeredConfig

namespace FileGroup

/-- The extension by which a file is decoded. -/
def extensionOf (group : FileGroup) (name : String) : String :=
  if group.extension.isEmpty then Path.extension name
  else String.ofList (group.extension.toList.dropWhile (· == '.'))

/-- The record of a file, or nothing where it is passed over. -/
def record? (group : FileGroup) (fs : FileSystem) (registry : Registry) (delimiter path : String) :
    Traced (Option Record) :=
  let name := Path.basename path
  let extension := group.extensionOf name
  match registry.decoder extension with
  | .error fault =>
    if group.exact then .fail fault
    else skip name "no decoder" [("extension", .text extension)] none
  | .ok decoder =>
    match fs.read path with
    | .ok bytes => do
      let tree ← decoder.decodeRecord { name, delimiter } .file extension bytes
      Traced.emit (Record.loadedEvent .file name (Decoder.documentDetails extension bytes))
      return some (.loaded name .file tree)
    | .error fault =>
      match fault.category with
      | .fileAbsent =>
        if group.exact then .fail (.requiredFileMissing path) else skip name "vanished" [] none
      | .permissionDenied => skip name "permission denied" [] none
      | category => .fail (if category.isFilesystem then .cannotRead path fault else fault)

/-- The records of one group. -/
def records (group : FileGroup) (disk : Disk) (registry : Registry) (delimiter : String) :
    Traced (List Record) := do
  let fs := group.place.on disk
  let files ← group.files fs
  return (← files.mapM (group.record? fs registry delimiter)).filterMap id

/-- The event that a group ended the collection. -/
def halted (index count : Nat) : Event :=
  .about .debug "filegroup_halted" "file" none [("group", .int index), ("records", .int count)]

/-- The records of all groups up to the first halting one that yields any; groups count from
`index`. -/
def collect (disk : Disk) (registry : Registry) (delimiter : String) (index : Nat) :
    List FileGroup → Traced (List Record)
  | [] => return []
  | group :: rest => do
    let found ← group.records disk registry delimiter
    if !found.isEmpty && group.halt then
      Traced.emit (halted index found.length)
      return found
    else return found ++ (← collect disk registry delimiter (index + 1) rest)

end FileGroup

end LayeredConfig
