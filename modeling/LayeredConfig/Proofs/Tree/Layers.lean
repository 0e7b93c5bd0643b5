import LayeredConfig.Proofs.Entries
import LayeredConfig.Tree.Fetch

/-! # Nodes by paths of keys

A path of keys leads through maps only. What a tree lays at a path is the node there, unless that
node is empty; an empty tree lays nothing anywhere. -/

namespace LayeredConfig.Tree

/-! ## Induction over trees -/

/-- What passes from the children and the items of a node to the node holds of every tree. -/
@[elab_as_elim]
theorem induction {motive : Tree → Prop}
    (leaf : ∀ value mark, motive (leaf value mark))
    (map : ∀ entries mark, (∀ key child, (key, child) ∈ entries → motive child) →
      motive (map entries mark))
    (array : ∀ items mark, (∀ item ∈ items, motive item) → motive (array items mark)) :
    ∀ tree, motive tree
  | .leaf value mark => leaf value mark
  | .map entries mark => map entries mark fun key child hmem =>
      have : sizeOf child < sizeOf entries := by
        have hpair := List.sizeOf_lt_of_mem hmem
        simp only [Prod.mk.sizeOf_spec] at hpair
        omega
      induction leaf map array child
  | .array items mark => array items mark fun item hmem =>
      have : sizeOf item < sizeOf items := List.sizeOf_lt_of_mem hmem
      induction leaf map array item

/-! ## Distinct keys -/

mutual

/-- Every map in a tree holds each of its keys once. -/
def DistinctKeys : Tree → Prop
  | leaf _ _ => True
  | map entries _ => (Entries.keys entries).Nodup ∧ DistinctKeysEntries entries
  | array items _ => DistinctKeysItems items

def DistinctKeysEntries : List (String × Tree) → Prop
  | [] => True
  | (_, child) :: rest => DistinctKeys child ∧ DistinctKeysEntries rest

def DistinctKeysItems : List Tree → Prop
  | [] => True
  | item :: rest => DistinctKeys item ∧ DistinctKeysItems rest

end

mutual

instance decidableDistinctKeys : (tree : Tree) → Decidable tree.DistinctKeys
  | leaf _ _ => inferInstanceAs (Decidable True)
  | map entries _ =>
    have := decidableDistinctKeysEntries entries
    inferInstanceAs (Decidable ((Entries.keys entries).Nodup ∧ DistinctKeysEntries entries))
  | array items _ => decidableDistinctKeysItems items

instance decidableDistinctKeysEntries :
    (entries : List (String × Tree)) → Decidable (DistinctKeysEntries entries)
  | [] => inferInstanceAs (Decidable True)
  | (_, child) :: rest =>
    have := decidableDistinctKeys child
    have := decidableDistinctKeysEntries rest
    inferInstanceAs (Decidable (child.DistinctKeys ∧ DistinctKeysEntries rest))

instance decidableDistinctKeysItems :
    (items : List Tree) → Decidable (DistinctKeysItems items)
  | [] => inferInstanceAs (Decidable True)
  | item :: rest =>
    have := decidableDistinctKeys item
    have := decidableDistinctKeysItems rest
    inferInstanceAs (Decidable (item.DistinctKeys ∧ DistinctKeysItems rest))

end

theorem distinctKeysEntries_iff {entries : List (String × Tree)} :
    DistinctKeysEntries entries ↔ ∀ key child, (key, child) ∈ entries → child.DistinctKeys := by
  induction entries with
  | nil => simp [DistinctKeysEntries]
  | cons entry rest ih =>
      rw [DistinctKeysEntries, ih]
      constructor
      · rintro ⟨hchild, hrest⟩ key child hmem
        rcases List.mem_cons.mp hmem with heq | hmem
        · cases heq
          exact hchild
        · exact hrest key child hmem
      · intro h
        exact ⟨h _ _ List.mem_cons_self, fun key child hmem =>
          h key child (List.mem_cons_of_mem _ hmem)⟩

theorem distinctKeysItems_iff {items : List Tree} :
    DistinctKeysItems items ↔ ∀ item ∈ items, item.DistinctKeys := by
  induction items with
  | nil => simp [DistinctKeysItems]
  | cons item rest ih => rw [DistinctKeysItems, ih, List.forall_mem_cons]

theorem distinctKeys_map_iff {entries : List (String × Tree)} {mark : Mark} :
    (map entries mark).DistinctKeys ↔
      (Entries.keys entries).Nodup ∧ ∀ key child, (key, child) ∈ entries → child.DistinctKeys := by
  rw [DistinctKeys, distinctKeysEntries_iff]

theorem distinctKeys_array_iff {items : List Tree} {mark : Mark} :
    (array items mark).DistinctKeys ↔ ∀ item ∈ items, item.DistinctKeys := by
  rw [DistinctKeys, distinctKeysItems_iff]

theorem DistinctKeys.keys_nodup {entries : List (String × Tree)} {mark : Mark}
    (h : (map entries mark).DistinctKeys) : (Entries.keys entries).Nodup :=
  (distinctKeys_map_iff.mp h).1

theorem DistinctKeys.child {entries : List (String × Tree)} {mark : Mark}
    (h : (map entries mark).DistinctKeys) {key : String} {child : Tree}
    (hmem : (key, child) ∈ entries) : child.DistinctKeys :=
  (distinctKeys_map_iff.mp h).2 key child hmem

/-! ## Origins left out -/

mutual

/-- A tree that does not tell where its nodes are from. -/
def withoutOrigins : Tree → Tree
  | leaf value mark => leaf value { mark with origins := [] }
  | map entries mark => map (entriesWithoutOrigins entries) { mark with origins := [] }
  | array items mark => array (itemsWithoutOrigins items) { mark with origins := [] }

def entriesWithoutOrigins : List (String × Tree) → List (String × Tree)
  | [] => []
  | (key, child) :: rest => (key, withoutOrigins child) :: entriesWithoutOrigins rest

def itemsWithoutOrigins : List Tree → List Tree
  | [] => []
  | item :: rest => withoutOrigins item :: itemsWithoutOrigins rest

end

/-! ## Paths of keys -/

/-- The node that a path of keys leads to. -/
def node? : List String → Tree → Option Tree
  | [], tree => some tree
  | key :: rest, tree => (tree.entries.lookup key).bind (node? rest)

/-- The node that a tree lays at a path; an empty node does not count. -/
def layer? (path : List String) (tree : Tree) : Option Tree :=
  (tree.node? path).filter fun node => !node.isEmpty

/-- All nodes that are laid at a path, from the first tree to the last. -/
def layers (path : List String) (trees : List Tree) : List Tree := trees.filterMap (layer? path)

theorem node?_append (path rest : List String) (tree : Tree) :
    tree.node? (path ++ rest) = (tree.node? path).bind (node? rest) := by
  induction path generalizing tree with
  | nil => rfl
  | cons key path ih =>
      rw [List.cons_append, node?, node?, Option.bind_assoc]
      exact congrArg _ (funext ih)

/-- Only maps have named children. -/
theorem eq_map_of_lookup {tree child : Tree} {key : String}
    (h : tree.entries.lookup key = some child) :
    ∃ entries mark, tree = map entries mark ∧ List.lookup key entries = some child := by
  cases tree with
  | leaf value mark => simp [entries] at h
  | map entries mark => exact ⟨entries, mark, rfl, h⟩
  | array items mark => simp [entries] at h

theorem DistinctKeys.node? {path : List String} {tree node : Tree} (htree : tree.DistinctKeys)
    (h : tree.node? path = some node) : node.DistinctKeys := by
  induction path generalizing tree with
  | nil =>
      cases h
      exact htree
  | cons key rest ih =>
      obtain ⟨child, hchild, hnode⟩ := Option.bind_eq_some_iff.mp h
      obtain ⟨entries, mark, rfl, hlookup⟩ := eq_map_of_lookup hchild
      exact ih (htree.child (Entries.mem_of_lookup hlookup)) hnode

/-- Navigation by a path of keys finds the node at the path. -/
theorem fetch_of_node? {path : List String} {tree node : Tree} (delimiter : String)
    (h : tree.node? path = some node) : tree.fetch delimiter path = .ok node := by
  suffices ∀ passed, tree.fetchFrom delimiter passed path = .ok node from this []
  induction path generalizing tree with
  | nil =>
      intro passed
      cases h
      rfl
  | cons key rest ih =>
      intro passed
      obtain ⟨child, hchild, hnode⟩ := Option.bind_eq_some_iff.mp h
      obtain ⟨entries, mark, rfl, hlookup⟩ := eq_map_of_lookup hchild
      simp only [fetchFrom, Tree.child, hlookup]
      exact ih hnode _

/-! ## Layers -/

theorem layer?_eq_some_iff {path : List String} {tree node : Tree} :
    tree.layer? path = some node ↔ tree.node? path = some node ∧ node.isEmpty = false := by
  simp [layer?, Option.filter_eq_some_iff]

theorem layer?_nil {tree : Tree} (h : tree.isEmpty = false) : tree.layer? [] = some tree :=
  layer?_eq_some_iff.mpr ⟨rfl, h⟩

theorem layer?_cons (key : String) (path : List String) (tree : Tree) :
    tree.layer? (key :: path) = (tree.entries.lookup key).bind (layer? path) := by
  simp only [layer?, node?]
  cases tree.entries.lookup key <;> rfl

/-- An empty tree has no children. -/
theorem entries_of_isEmpty {tree : Tree} (h : tree.isEmpty) : tree.entries = [] := by
  cases tree with
  | leaf value mark => rfl
  | map entries mark =>
      simp only [isEmpty, Bool.and_eq_true, List.isEmpty_iff] at h
      exact h.2
  | array items mark => rfl

/-- An empty tree lays nothing at any path. -/
theorem layer?_of_isEmpty {tree : Tree} (h : tree.isEmpty) (path : List String) :
    tree.layer? path = none := by
  cases path with
  | nil => simp [layer?, node?, Option.filter, h]
  | cons key rest =>
      rw [layer?_cons, entries_of_isEmpty h]
      rfl

end LayeredConfig.Tree
