import LayeredConfig.Proofs.Tree.Navigation
import Mathlib.Logic.Function.Iterate

/-! # Operations that keep the structure

An operation that treats the children of a node as it treats the node may be exchanged with
navigation. Some do so for all nodes, and some only where nothing is secret. -/

namespace LayeredConfig.Tree

section Children

variable (f : Tree → Tree) (mark : Mark) (path segment : String)

theorem child_map (entries : List (String × Tree)) :
    (map (entries.map fun entry => (entry.1, f entry.2)) mark).child path segment =
      ((map entries mark).child path segment).map f := by
  rw [child, child, Entries.lookup_map]
  cases entries.lookup segment <;> rfl

theorem child_array (items : List Tree) :
    (array (items.map f) mark).child path segment =
      ((array items mark).child path segment).map f := by
  rw [child, child]
  split
  · rfl
  · simp only [List.getElem?_map]
    cases items[Text.digitsValue segment.toList]? <;> rfl

end Children

/-- Where `P` holds of a node, `f` does to its children what it does to the node. -/
structure Childwise (P : Tree → Prop) (f : Tree → Tree) : Prop where
  child : ∀ {tree}, P tree → ∀ path segment,
    (f tree).child path segment = (tree.child path segment).map f
  lookup : ∀ {tree}, P tree → ∀ key,
    (f tree).entries.lookup key = (tree.entries.lookup key).map f

namespace Childwise

variable {P : Tree → Prop} {f : Tree → Tree}

/-- Navigation finds the same place, or fails alike, if `P` holds above that place. -/
theorem fetch (hf : Childwise P f) {delimiter : String} {path : List String} {tree : Tree}
    (h : ∀ above, above <+: path → above ≠ path →
      ∀ node, tree.fetch delimiter above = .ok node → P node) :
    (f tree).fetch delimiter path = (tree.fetch delimiter path).map f := by
  suffices ∀ passed, (f tree).fetchFrom delimiter passed path =
      (tree.fetchFrom delimiter passed path).map f from this []
  induction path generalizing tree with
  | nil => exact fun _ => rfl
  | cons segment rest ih =>
      intro passed
      have htree : P tree := h [] List.nil_prefix (List.cons_ne_nil _ _).symm tree rfl
      rw [fetchFrom, fetchFrom, hf.child htree]
      cases hchild : tree.child (delimiter.intercalate (passed ++ [segment])) segment with
      | error fault => rfl
      | ok next =>
          refine ih (fun above habove hne node hnode => ?_) _
          refine h (segment :: above) (List.cons_prefix_cons.mpr ⟨rfl, habove⟩) ?_ node ?_
          · exact fun heq => hne (List.cons.inj heq).2
          · exact fetch_cons_eq_ok_iff.mpr ⟨next, child_eq_ok hchild segment, hnode⟩

theorem node? (hf : Childwise P f) {path : List String} {tree : Tree}
    (h : ∀ above, above <+: path → above ≠ path → ∀ node, tree.node? above = some node → P node) :
    (f tree).node? path = (tree.node? path).map f := by
  induction path generalizing tree with
  | nil => rfl
  | cons key rest ih =>
      have htree : P tree := h [] List.nil_prefix (List.cons_ne_nil _ _).symm tree rfl
      rw [Tree.node?, Tree.node?, hf.lookup htree]
      cases hchild : tree.entries.lookup key with
      | none => rfl
      | some child =>
          refine ih fun above habove hne node hnode => ?_
          refine h (key :: above) (List.cons_prefix_cons.mpr ⟨rfl, habove⟩) ?_ node ?_
          · exact fun heq => hne (List.cons.inj heq).2
          · rw [Tree.node?, hchild]
            exact hnode

end Childwise

/-- All children are treated as the tree is, and nothing becomes or ceases to be secret. -/
structure KeepsStructure (f : Tree → Tree) : Prop extends Childwise (fun _ => True) f where
  isSecret : ∀ tree, (f tree).isSecret = tree.isSecret

namespace KeepsStructure

variable {f g : Tree → Tree}

theorem fetch (hf : KeepsStructure f) (delimiter : String) (path : List String) (tree : Tree) :
    (f tree).fetch delimiter path = (tree.fetch delimiter path).map f :=
  hf.toChildwise.fetch fun _ _ _ _ _ => trivial

theorem node? (hf : KeepsStructure f) (path : List String) (tree : Tree) :
    (f tree).node? path = (tree.node? path).map f :=
  hf.toChildwise.node? fun _ _ _ _ _ => trivial

theorem id : KeepsStructure fun tree => tree where
  child {tree} _ path segment := by cases tree.child path segment <;> rfl
  lookup _ _ := Option.map_id'.symm
  isSecret _ := rfl

theorem comp (hg : KeepsStructure g) (hf : KeepsStructure f) :
    KeepsStructure fun tree => g (f tree) where
  child {tree} _ path segment := by
    rw [hg.child trivial, hf.child trivial]
    cases tree.child path segment <;> rfl
  lookup _ key := by
    rw [hg.lookup trivial, hf.lookup trivial, Option.map_map]
    rfl
  isSecret tree := by rw [hg.isSecret, hf.isSecret]

theorem iterate (hf : KeepsStructure f) (count : Nat) : KeepsStructure f^[count] := by
  induction count with
  | zero => exact .id
  | succ count ih => exact ih.comp hf

end KeepsStructure

end LayeredConfig.Tree
