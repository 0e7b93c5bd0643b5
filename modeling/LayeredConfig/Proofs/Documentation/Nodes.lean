import LayeredConfig.Documentation.Basic
import LayeredConfig.Proofs.Entries

/-! # Nodes of documentation

Names lead from the root of documentation to its nodes. Where the children of each node have
distinct names, a path of names leads to one node at most. -/

namespace LayeredConfig.Documentation

/-- What passes from the children of a node to the node holds of all documentation. -/
@[elab_as_elim]
theorem induction {motive : Documentation → Prop}
    (node : ∀ note children, (∀ name child, (name, child) ∈ children → motive child) →
      motive (node note children)) :
    ∀ documentation, motive documentation
  | .node note children => node note children fun name child hmem =>
      have : sizeOf child < sizeOf children := by
        have hpair := List.sizeOf_lt_of_mem hmem
        simp only [Prod.mk.sizeOf_spec] at hpair
        omega
      induction node child

/-- The children of every node have distinct names. -/
inductive DistinctNames : Documentation → Prop
  | node {children : List (String × Documentation)} (note : DocNote)
      (hnodup : (Entries.keys children).Nodup)
      (hchildren : ∀ name child, (name, child) ∈ children → DistinctNames child) :
      DistinctNames (.node note children)

namespace DistinctNames

variable {documentation child : Documentation} {name : String}

theorem keys_nodup (h : documentation.DistinctNames) : documentation.children.keys.Nodup := by
  cases h with
  | node note hnodup hchildren => exact hnodup

theorem of_mem (h : documentation.DistinctNames) (hmem : (name, child) ∈ documentation.children) :
    child.DistinctNames := by
  cases h with
  | node note hnodup hchildren => exact hchildren name child hmem

theorem of_lookup (h : documentation.DistinctNames)
    (hchild : documentation.children.lookup name = some child) : child.DistinctNames :=
  h.of_mem (Entries.mem_of_lookup hchild)

theorem leaf (note : DocNote) : (Documentation.node note []).DistinctNames :=
  .node note List.nodup_nil fun _ _ hmem => (List.not_mem_nil hmem).elim

theorem empty : empty.DistinctNames := leaf {}

end DistinctNames

/-- The node that a path of names leads to. -/
def node? : List String → Documentation → Option Documentation
  | [], documentation => some documentation
  | name :: rest, documentation => (documentation.child? name).bind (node? rest)

end LayeredConfig.Documentation
