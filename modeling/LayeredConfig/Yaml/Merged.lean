import LayeredConfig.Yaml.Node

/-!
# Merged mappings

The key `<<` stands for the entries of the mapping behind it, or of each mapping in a sequence
there. Such entries come before those of the mapping itself, and the first mapping of a sequence
comes last, so that nearer entries win.
-/

namespace LayeredConfig.Yaml.Node

def mappingEntries? : Node → Option (List (Node × Node))
  | mapping _ entries _ => some entries
  | _ => none

/-- The entries that stand for a merge key with the given value. -/
def mergeEntries? : Node → Option (List (Node × Node))
  | sequence _ items _ =>
    (items.mapM mappingEntries?).map fun found => found.reverse.flatten
  | node => node.mappingEntries?

def isMergeKey (key : Node) : Bool := key.tag == coreTag "merge"

/-- The mapping with its merge keys carried out. -/
def carryOut (tag : String) (entries : List (Node × Node)) (start : Position) : Node :=
  let merges := entries.filter fun entry => entry.1.isMergeKey
  match merges.mapM fun entry => entry.2.mergeEntries? with
  | some merged =>
    mapping tag (merged.flatten ++ entries.filter fun entry => !entry.1.isMergeKey) start
  | none => broken

mutual

/-- The node with all merges below it carried out; keys stay as they are. -/
def merged : Node → Node
  | mapping tag entries start => carryOut tag (mergedEntries entries) start
  | sequence tag items start => sequence tag (mergedItems items) start
  | node => node

def mergedEntries : List (Node × Node) → List (Node × Node)
  | [] => []
  | (key, value) :: rest => (key, merged value) :: mergedEntries rest

def mergedItems : List Node → List Node
  | [] => []
  | item :: rest => merged item :: mergedItems rest

end

end LayeredConfig.Yaml.Node
