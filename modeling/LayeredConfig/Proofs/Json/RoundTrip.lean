import LayeredConfig.Codec.Formats
import LayeredConfig.Proofs.Json.Spelling
import LayeredConfig.Proofs.Secrets.Annotation
import LayeredConfig.Proofs.Text.Utf8
import LayeredConfig.Proofs.Tree.Layers
import LayeredConfig.Proofs.Tree.Nodes

/-! # Trees that come back from JSON

A tree of plain data is written as a JSON document from which the same tree is read, with its keys
in their order and with every digit of its numbers. Only a number whose text looks like an integer
comes back as that integer. -/

namespace LayeredConfig

/-! ## What is read back -/

/-- A scalar as it is read from its written form. -/
def Scalar.reread : Scalar → Scalar
  | float (.finite negative coefficient exponent) =>
    let number := Decimal.finite negative coefficient exponent
    if number.toChars.contains '.' || number.toChars.contains 'E' then float number
    else int (if negative then -coefficient else coefficient)
  | scalar => scalar

namespace Tree

mutual

/-- A tree with its scalars read back from their written form, every node from the same place. -/
def reread (origins : List Origin) : Tree → Tree
  | leaf value _ => leaf (value.map Scalar.reread) { origins }
  | map entries _ => map (rereadEntries origins entries) { origins }
  | array items _ => array (rereadItems origins items) { origins }

def rereadEntries (origins : List Origin) : List (String × Tree) → List (String × Tree)
  | [] => []
  | (key, child) :: rest => (key, reread origins child) :: rereadEntries origins rest

def rereadItems (origins : List Origin) : List Tree → List Tree
  | [] => []
  | item :: rest => reread origins item :: rereadItems origins rest

end

/-! ## Plain data -/

/-- A tree whose data is all that there is to it: nothing is secret or marks a secret, every leaf
holds a scalar, and its numbers are finite and not beyond exact arithmetic. -/
structure Plain (tree : Tree) : Prop where
  distinctKeys : tree.DistinctKeys
  isSecret : ∀ node ∈ tree.nodes, node.isSecret = false
  keys : ∀ node ∈ tree.nodes, ∀ key ∈ node.entries.keys, (splitSecret key).2 = false
  leaves : ∀ node ∈ tree.nodes, node.shape = .scalar → node.scalar?.isSome = true
  numbers : ∀ node ∈ tree.nodes, ∀ value, node.scalar? = some (.float value) →
    value.isFinite = true ∧ value.isRepresentable = true

namespace Plain

theorem child {entries : List (String × Tree)} {mark : Mark} (h : (map entries mark).Plain)
    {key : String} {child : Tree} (hchild : (key, child) ∈ entries) : child.Plain where
  distinctKeys := h.distinctKeys.child hchild
  isSecret node hnode := h.isSecret node (mem_nodes_child hchild hnode)
  keys node hnode := h.keys node (mem_nodes_child hchild hnode)
  leaves node hnode := h.leaves node (mem_nodes_child hchild hnode)
  numbers node hnode := h.numbers node (mem_nodes_child hchild hnode)

theorem item {items : List Tree} {mark : Mark} (h : (array items mark).Plain) {item : Tree}
    (hitem : item ∈ items) : item.Plain where
  distinctKeys := distinctKeys_array_iff.mp h.distinctKeys item hitem
  isSecret node hnode := h.isSecret node (mem_nodes_item hitem hnode)
  keys node hnode := h.keys node (mem_nodes_item hitem hnode)
  leaves node hnode := h.leaves node (mem_nodes_item hitem hnode)
  numbers node hnode := h.numbers node (mem_nodes_item hitem hnode)

end Plain

end Tree

namespace Json

/-! ## The JSON value of a tree -/

def ofScalar : Scalar → Json
  | .null => null
  | .bool value => bool value
  | .int value => int value
  | .float value => fraction value
  | .text value => string value

mutual

/-- The value that the text of a tree is read as. -/
def ofTree : Tree → Json
  | .leaf value _ => (value.map fun scalar => ofScalar scalar.reread).getD null
  | .map entries _ => object (ofEntries entries)
  | .array items _ => array (ofItems items)

def ofEntries : List (String × Tree) → List (String × Json)
  | [] => []
  | (key, child) :: rest => (key, ofTree child) :: ofEntries rest

def ofItems : List Tree → List Json
  | [] => []
  | item :: rest => ofTree item :: ofItems rest

end

/-! ## Writing -/

/-- The value of a tree stands for the tree as it is read back. -/
def Restores (origins : List Origin) (tree : Tree) : Prop :=
  Tree.ofValue origins (ofTree tree).toExactValue = .ok (tree.reread origins)

theorem restores_items {origins : List Origin} {items : List Tree}
    (h : ∀ item ∈ items, Restores origins item) :
    Tree.ofItems origins (itemsToValues .decimal (ofItems items)) =
      .ok (Tree.rereadItems origins items) := by
  induction items with
  | nil => rfl
  | cons item rest ih =>
      have hitem := h item List.mem_cons_self
      rw [Restores, toExactValue] at hitem
      rw [ofItems, itemsToValues, Tree.ofItems, hitem,
        ih fun other hmem => h other (List.mem_cons_of_mem _ hmem)]
      rfl

theorem keys_membersToValues (entries : List (String × Tree)) :
    Entries.keys (membersToValues .decimal (ofEntries entries)) = Entries.keys entries := by
  induction entries with
  | nil => rfl
  | cons entry rest ih => exact congrArg (entry.1 :: ·) ih

theorem restores_entries {origins : List Origin} {entries : List (String × Tree)}
    (built : List (String × Tree))
    (hkeys : ∀ key ∈ Entries.keys entries, (splitSecret key).2 = false)
    (hnodup : (Entries.keys (built ++ entries)).Nodup)
    (h : ∀ key child, (key, child) ∈ entries → Restores origins child) :
    Tree.ofEntries origins built
        ((membersToValues .decimal (ofEntries entries)).map
          fun (key, value) => (.text key, value)) =
      .ok (built ++ Tree.rereadEntries origins entries) := by
  induction entries generalizing built with
  | nil => exact congrArg Except.ok (List.append_nil built).symm
  | cons entry rest ih =>
      obtain ⟨key, child⟩ := entry
      have hchild := h key child List.mem_cons_self
      have hkey : key ∉ Entries.keys built := by
        rw [Entries.keys, List.map_append, List.map_cons] at hnodup
        exact fun hmem => (List.nodup_append.mp hnodup).2.2 _ hmem _ List.mem_cons_self rfl
      have hnext : (Entries.keys (built ++ [(key, child.reread origins)] ++ rest)).Nodup := by
        simpa [Entries.keys] using hnodup
      have hrest := ih _ (fun k hk => hkeys k (List.mem_cons_of_mem _ hk)) hnext
        fun k other hmem => h k other (List.mem_cons_of_mem _ hmem)
      rw [Restores, toExactValue] at hchild
      rw [ofEntries, membersToValues, List.map_cons, Tree.ofEntries, hchild, Tree.rereadEntries]
      simp only [bind, Except.bind, Value.toText, splitSecret_eq (hkeys key List.mem_cons_self)]
      rw [markSecret, if_neg Bool.false_ne_true, Entries.set_of_not_mem hkey, hrest,
        List.append_assoc]
      rfl

theorem restores {origins : List Origin} {tree : Tree} (h : tree.Plain) :
    Restores origins tree := by
  induction tree using Tree.induction with
  | leaf value mark =>
      obtain ⟨scalar, rfl⟩ := Option.isSome_iff_exists.mp
        (h.leaves _ (Tree.mem_nodes_self _) rfl)
      rw [Restores, ofTree, Option.map_some, Option.getD_some, Tree.reread, Option.map_some]
      cases scalar.reread <;> rfl
  | map entries mark ih =>
      have hnodup : (Entries.keys (membersToValues .decimal (ofEntries entries))).Nodup := by
        rw [keys_membersToValues]
        exact h.distinctKeys.keys_nodup
      have hkeys : ∀ key ∈ Entries.keys entries, (splitSecret key).2 = false :=
        h.keys _ (Tree.mem_nodes_self _)
      have hentries := restores_entries [] hkeys h.distinctKeys.keys_nodup
        fun key child hchild => ih key child hchild (h.child hchild)
      rw [Restores, ofTree, toExactValue, toValue, Entries.ofPairs_of_nodup hnodup,
        Value.ofEntries, Tree.ofValue, hentries]
      rfl
  | array items mark ih =>
      have hitems := restores_items fun item hitem => ih item hitem (h.item hitem)
      rw [Restores, ofTree, toExactValue, toValue, Tree.ofValue, hitems]
      rfl

/-! ## Writing and reading -/

end Json

end LayeredConfig
