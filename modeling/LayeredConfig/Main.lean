import LayeredConfig.CommandLine.Run

/-!
# The command

Takes the files that a command line names and the variables of its environment into values, runs
it, and prints what it answers.
-/

namespace LayeredConfig.CommandLine

/-- A disk with what lies at a path, if anything does. -/
def withPath (below : Bool) (disk : Disk) (path : String) : IO Disk := do
  let place := (← IO.currentDir) / path
  if ← place.isDir then
    let inside ← place.walkDir fun directory => return below || directory == place
    inside.foldlM withFileOrDirectory (disk.makeDirectory place.toString)
  else if ← place.pathExists then
    return disk.write place.toString (← IO.FS.readBinFile place).toList
  else return disk
where
  withFileOrDirectory (disk : Disk) place := do
    if ← place.isDir then return disk.makeDirectory place.toString
    else return disk.write place.toString (← IO.FS.readBinFile place).toList

/-- The part of the disk that a request reads. -/
def diskFor (words : List String) : IO Disk := do
  let disk := Disk.empty (← IO.currentDir).toString
  match Command.read? words with
  | some (.compile request) =>
    (request.paths ++ request.documentation.toList).foldlM (withPath request.recurse) disk
  | _ => return disk

/-- The variables that this program was started with. -/
def environment : IO (List (String × String)) := do
  let content ← IO.FS.readBinFile "/proc/self/environ"
  let entries := Text.split "\x00" ((Text.ofBytes? content.toList).getD "")
  return entries.filterMap fun entry =>
    (Text.cut? ['='] entry.toList).map fun (name, value) =>
      (String.ofList name, String.ofList value)

end LayeredConfig.CommandLine

open LayeredConfig CommandLine in
def main (words : List String) : IO UInt32 := do
  let outcome := run { disk := ← diskFor words, environment := ← environment } words
  IO.print outcome.output
  return outcome.exitCode.toUInt32
