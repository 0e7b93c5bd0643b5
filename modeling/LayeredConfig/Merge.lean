import LayeredConfig.Fault
import LayeredConfig.Tree.Basic

/-!
# Merging

Layers are laid on top of one another. A later scalar replaces an earlier one, maps are united and
their shared keys merged, a later array replaces an earlier one as a whole, and nodes of different
shapes do not merge. An empty node leaves the other side as it is.
-/

namespace LayeredConfig

namespace Mark

/-- Origins of both sides; secret as soon as one side is. -/
def merge (base incoming : Mark) : Mark :=
  { origins := base.origins ++ incoming.origins, secret := base.secret || incoming.secret }

/-- Origins of the later side; secret as soon as one side is. -/
def replace (base incoming : Mark) : Mark :=
  { origins := incoming.origins, secret := base.secret || incoming.secret }

end Mark

namespace Tree

/-- How the position of a conflict is shown. -/
def showPath (delimiter : String) (path : List String) : String :=
  let shown := delimiter.intercalate path
  if shown.isEmpty then "<root>" else shown

/-- The conflict between two nodes of different shapes. -/
def collision (delimiter : String) (path : List String) (base incoming : Tree) : Fault :=
  .shapesCollide incoming.shape base.shape (showPath delimiter path)

mutual

/-- The incoming tree on top of the base; `path` leads from the root to both. -/
def mergeAt (delimiter : String) (path : List String) (base : Tree) :
    (incoming : Tree) → Except Fault Tree
  | leaf value mark =>
    if (leaf value mark).isEmpty then .ok base
    else if base.isEmpty then .ok (leaf value mark)
    else
      match base with
      | leaf _ under => .ok (leaf value (under.merge mark))
      | _ => .error (collision delimiter path base (leaf value mark))
  | array items mark =>
    if (array items mark).isEmpty then .ok base
    else if base.isEmpty then .ok (array items mark)
    else
      match base with
      | array _ under => .ok (array items (under.replace mark))
      | _ => .error (collision delimiter path base (array items mark))
  | map entries mark =>
    if (map entries mark).isEmpty then .ok base
    else if base.isEmpty then .ok (map entries mark)
    else
      match base with
      | map under baseMark =>
        match mergeEntries delimiter path under entries with
        | .ok merged => .ok (map merged (baseMark.merge mark))
        | .error fault => .error fault
      | _ => .error (collision delimiter path base (map entries mark))

/-- Merges the incoming children one by one into those of the base. -/
def mergeEntries (delimiter : String) (path : List String) (base : List (String × Tree)) :
    (incoming : List (String × Tree)) → Except Fault (List (String × Tree))
  | [] => .ok base
  | (key, child) :: rest =>
    match base.lookup key with
    | none => mergeEntries delimiter path (Entries.set key child base) rest
    | some existing =>
      match mergeAt delimiter (path ++ [key]) existing child with
      | .ok merged => mergeEntries delimiter path (Entries.set key merged base) rest
      | .error fault => .error fault

end

/-- The incoming tree on top of the base. -/
def merge (delimiter : String) (base incoming : Tree) : Except Fault Tree :=
  mergeAt delimiter [] base incoming

/-- Trees laid on top of one another, the first at the bottom. -/
def mergeAll (delimiter : String) (trees : List Tree) : Except Fault Tree :=
  trees.foldlM (merge delimiter) empty

end Tree

end LayeredConfig
