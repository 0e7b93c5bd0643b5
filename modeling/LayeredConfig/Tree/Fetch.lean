import LayeredConfig.Fault
import LayeredConfig.Text.Classes
import LayeredConfig.Tree.Basic

/-!
# Navigation

A path addresses a node: maps are entered by key and arrays by decimal index. A key is a text whose
segments stand between delimiters; the empty key addresses the root.
-/

namespace LayeredConfig

/-- The path that a key stands for. -/
def keyPath (delimiter key : String) : List String :=
  if key.isEmpty then [] else Text.split delimiter key

namespace Tree

/-- The child that one segment addresses; `path` names it in messages. -/
def child (path segment : String) : Tree → Except Fault Tree
  | map entries _ =>
    match entries.lookup segment with
    | some node => .ok node
    | none => .error (.keyNotFound path)
  | array items _ =>
    if segment.isEmpty || !segment.toList.all Text.isDecimalDigit then
      .error (.indexExpected path segment)
    else
      let index := Text.digitsValue segment.toList
      match items[index]? with
      | some node => .ok node
      | none => .error (.indexOutOfRange path index)
  | leaf value mark =>
    if (leaf value mark).isEmpty then .error (.keyNotFound path) else .error (.scalarEntered path)

/-- Follows the segments from a node that was reached through `passed`. -/
def fetchFrom (delimiter : String) (passed : List String) : List String → Tree → Except Fault Tree
  | [], tree => .ok tree
  | segment :: rest, tree =>
    let passed := passed ++ [segment]
    match tree.child (delimiter.intercalate passed) segment with
    | .ok node => fetchFrom delimiter passed rest node
    | .error fault => .error fault

/-- The node at a path. -/
def fetch (delimiter : String) (path : List String) (tree : Tree) : Except Fault Tree :=
  fetchFrom delimiter [] path tree

end Tree

end LayeredConfig
