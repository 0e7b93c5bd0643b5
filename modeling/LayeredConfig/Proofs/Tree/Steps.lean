import LayeredConfig.Proofs.Tree.Layers

/-! # Steps

A step leads to one of the parts of a whole, by its name or by its place among the items. A path of
steps leads to the parts of parts. -/

namespace LayeredConfig

variable {α : Type}

/-- One step down: to a name of a mapping, or to an item of a sequence. -/
inductive Step
  | name (name : String)
  | item (index : Nat)

def Tree.part? : Step → Tree → Option Tree
  | .name name, tree => tree.entries.lookup name
  | .item index, tree => tree.items[index]?

/-- What a path leads to. -/
def below? (part? : Step → α → Option α) : List Step → α → Option α
  | [], whole => some whole
  | step :: rest, whole => (part? step whole).bind (below? part? rest)

theorem Tree.below?_names (path : List String) (tree : Tree) :
    below? Tree.part? (path.map .name) tree = tree.node? path := by
  induction path generalizing tree with
  | nil => rfl
  | cons name rest ih =>
      rw [List.map_cons, below?, Tree.node?, Tree.part?]
      exact congrArg _ (funext ih)

theorem Tree.DistinctKeys.nodup_entries {tree : Tree} (h : tree.DistinctKeys) :
    tree.entries.keys.Nodup := by
  cases tree with
  | map entries mark => exact h.keys_nodup
  | leaf | array => exact List.nodup_nil

theorem Tree.DistinctKeys.part? {tree part : Tree} (htree : tree.DistinctKeys) {step : Step}
    (h : tree.part? step = some part) : part.DistinctKeys := by
  cases tree with
  | leaf value mark => cases step <;> exact nomatch h
  | map entries mark =>
      cases step with
      | name name => exact htree.child (Entries.mem_of_lookup h)
      | item index => exact nomatch h
  | array items mark =>
      cases step with
      | name name => exact nomatch h
      | item index => exact distinctKeys_array_iff.mp htree part (List.mem_of_getElem? h)

end LayeredConfig
