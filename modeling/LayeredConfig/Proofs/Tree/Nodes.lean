import LayeredConfig.Tree.Basic

/-! # All nodes of a tree

The nodes of a tree are the tree itself and the nodes of its children and items. What is said of all
nodes of a tree holds of those of its children and items. -/

namespace LayeredConfig.Tree

mutual

/-- All nodes of a tree, the tree itself first. -/
def nodes : Tree → List Tree
  | leaf value mark => [leaf value mark]
  | map entries mark => map entries mark :: nodesOfEntries entries
  | array items mark => array items mark :: nodesOfItems items

def nodesOfEntries : List (String × Tree) → List Tree
  | [] => []
  | (_, child) :: rest => nodes child ++ nodesOfEntries rest

def nodesOfItems : List Tree → List Tree
  | [] => []
  | item :: rest => nodes item ++ nodesOfItems rest

end

theorem mem_nodes_self (tree : Tree) : tree ∈ tree.nodes := by
  cases tree <;> exact List.mem_cons_self

theorem mem_nodes_map_iff {entries : List (String × Tree)} {mark : Mark} {node : Tree} :
    node ∈ (map entries mark).nodes ↔
      node = map entries mark ∨ ∃ entry ∈ entries, node ∈ entry.2.nodes := by
  rw [nodes, List.mem_cons]
  refine or_congr_right ?_
  induction entries with
  | nil => simp [nodesOfEntries]
  | cons entry rest ih => simp [nodesOfEntries, ih]

theorem mem_nodes_array_iff {items : List Tree} {mark : Mark} {node : Tree} :
    node ∈ (array items mark).nodes ↔
      node = array items mark ∨ ∃ item ∈ items, node ∈ item.nodes := by
  rw [nodes, List.mem_cons]
  refine or_congr_right ?_
  induction items with
  | nil => simp [nodesOfItems]
  | cons item rest ih => simp [nodesOfItems, ih]

theorem mem_nodes_child {entries : List (String × Tree)} {mark : Mark} {key : String}
    {child node : Tree} (hchild : (key, child) ∈ entries) (hnode : node ∈ child.nodes) :
    node ∈ (map entries mark).nodes :=
  mem_nodes_map_iff.mpr (.inr ⟨_, hchild, hnode⟩)

theorem mem_nodes_item {items : List Tree} {mark : Mark} {item node : Tree} (hitem : item ∈ items)
    (hnode : node ∈ item.nodes) : node ∈ (array items mark).nodes :=
  mem_nodes_array_iff.mpr (.inr ⟨item, hitem, hnode⟩)

/-! ## Numbers that equal themselves -/

/-- No leaf of a tree holds a number that differs from itself. -/
def SelfSame (tree : Tree) : Prop :=
  ∀ node ∈ tree.nodes, ∀ scalar ∈ node.scalar?, scalar.same scalar = true

theorem SelfSame.child {entries : List (String × Tree)} {mark : Mark}
    (h : (map entries mark).SelfSame) {key : String} {child : Tree}
    (hchild : (key, child) ∈ entries) : child.SelfSame :=
  fun node hnode => h node (mem_nodes_child hchild hnode)

theorem SelfSame.item {items : List Tree} {mark : Mark} (h : (array items mark).SelfSame)
    {item : Tree} (hitem : item ∈ items) : item.SelfSame :=
  fun node hnode => h node (mem_nodes_item hitem hnode)

end LayeredConfig.Tree
