import LayeredConfig.Expansion.Expand
import LayeredConfig.Proofs.Tree.Structure

/-! # One directive on a tree

A directive rewrites texts and nothing else, each leaf by itself. It leaves a tree as it is unless
it exchanges a placeholder in one of the texts. -/

namespace LayeredConfig

/-! ## Texts -/

/-- A text is what stands before the mark, the mark, and what stands after it. -/
theorem Text.eq_of_cut? {mark text before after : List Char}
    (h : cut? mark text = some (before, after)) : text = before ++ mark ++ after := by
  induction text generalizing before after with
  | nil =>
      cases mark with
      | nil =>
          cases h
          rfl
      | cons c rest => cases h
  | cons c rest ih =>
      rw [cut?] at h
      split at h
      · next hmark =>
        cases h
        obtain ⟨after, hafter⟩ := List.isPrefixOf_iff_prefix.mp hmark
        rw [← hafter]
        simp
      · obtain ⟨⟨before, after⟩, hcut, heq⟩ := Option.map_eq_some_iff.mp h
        cases heq
        rw [ih hcut]
        simp

/-- A leaf of the tree holds the text. -/
inductive Tree.HasText (text : String) : Tree → Prop where
  | leaf (mark : Mark) : HasText text (leaf (some (.text text)) mark)
  | entry {entries : List (String × Tree)} {mark : Mark} {key : String} {child : Tree}
      (hmem : (key, child) ∈ entries) (h : HasText text child) : HasText text (map entries mark)
  | item {items : List Tree} {mark : Mark} {item : Tree} (hmem : item ∈ items)
      (h : HasText text item) : HasText text (array items mark)

theorem Tree.HasText.of_child {path segment text : String} {tree node : Tree}
    (hnode : tree.child path segment = .ok node) (h : node.HasText text) : tree.HasText text := by
  cases tree with
  | leaf value mark =>
      rw [child] at hnode
      split at hnode <;> cases hnode
  | map entries mark =>
      rw [child] at hnode
      split at hnode
      · next found hfound =>
        cases hnode
        exact .entry (Entries.mem_of_lookup hfound) h
      · cases hnode
  | array items mark =>
      rw [child] at hnode
      split at hnode
      · cases hnode
      · dsimp only at hnode
        split at hnode
        · next found hfound =>
          cases hnode
          exact .item (List.mem_of_getElem? hfound) h
        · cases hnode

/-- A part of a tree has no other texts than the tree. -/
theorem Tree.HasText.of_fetch {delimiter text : String} {path : List String} {tree node : Tree}
    (hnode : tree.fetch delimiter path = .ok node) (h : node.HasText text) : tree.HasText text := by
  induction path generalizing tree with
  | nil =>
      cases hnode
      exact h
  | cons segment rest ih =>
      obtain ⟨next, hnext, hnode⟩ := fetch_cons_eq_ok_iff.mp hnode
      exact .of_child hnext (ih hnode)

namespace Directive

/-! ## Substitution -/

section Substitution

variable {directive : Directive}

theorem substituteChars_of_not_changed {text : List Char}
    (h : (directive.substituteChars text).changed = false) :
    (directive.substituteChars text).text = text := by
  fun_induction substituteChars directive text with
  | case1 | case2 => rfl
  | case3 => cases h
  | case4 text before after hopen name rest hclose replacement found hlookup hfound tail ih =>
      rw [Text.eq_of_cut? hopen]
      exact congrArg (before ++ directive.opening ++ ·) (ih h)

/-- Where no placeholder is exchanged the text stays as it is. -/
theorem substitute_of_not_changed {text : String} (h : (directive.substitute text).2.1 = false) :
    (directive.substitute text).1 = text := by
  rw [substitute, substituteChars_of_not_changed h, String.ofList_toList]

end Substitution

/-! ## Rewriting -/

variable (directive : Directive)

/-- The tree after the directive has gone through it once. -/
def rewrite (tree : Tree) : Tree := (directive.expandOnce tree).value

/-- Whether the directive exchanges a placeholder in the tree, if only for itself. -/
def changes (tree : Tree) : Bool := (directive.expandOnce tree).changed

theorem expandEntriesOnce_eq (entries : List (String × Tree)) :
    (directive.expandEntriesOnce entries).value =
        entries.map (fun entry => (entry.1, directive.rewrite entry.2)) ∧
      (directive.expandEntriesOnce entries).changed =
        entries.any fun entry => directive.changes entry.2 := by
  induction entries with
  | nil => exact ⟨rfl, rfl⟩
  | cons entry rest ih =>
      rw [expandEntriesOnce, List.map_cons, List.any_cons, ← ih.1, ← ih.2]
      exact ⟨rfl, rfl⟩

theorem expandItemsOnce_eq (items : List Tree) :
    (directive.expandItemsOnce items).value = items.map directive.rewrite ∧
      (directive.expandItemsOnce items).changed = items.any directive.changes := by
  induction items with
  | nil => exact ⟨rfl, rfl⟩
  | cons item rest ih =>
      rw [expandItemsOnce, List.map_cons, List.any_cons, ← ih.1, ← ih.2]
      exact ⟨rfl, rfl⟩

theorem rewrite_map (entries : List (String × Tree)) (mark : Mark) :
    directive.rewrite (.map entries mark) =
      .map (entries.map fun entry => (entry.1, directive.rewrite entry.2)) mark := by
  rw [← (directive.expandEntriesOnce_eq entries).1, rewrite, expandOnce]

theorem rewrite_array (items : List Tree) (mark : Mark) :
    directive.rewrite (.array items mark) = .array (items.map directive.rewrite) mark := by
  rw [← (directive.expandItemsOnce_eq items).1, rewrite, expandOnce]

theorem rewrite_text (text : String) (mark : Mark) :
    directive.rewrite (.leaf (some (.text text)) mark) =
      if (directive.substitute text).2.1 then
        .leaf (some (.text (directive.substitute text).1))
          { mark with origins := directive.annotate mark.origins }
      else .leaf (some (.text text)) mark := rfl

theorem changes_map (entries : List (String × Tree)) (mark : Mark) :
    directive.changes (.map entries mark) = entries.any fun entry => directive.changes entry.2 := by
  rw [← (directive.expandEntriesOnce_eq entries).2, changes, expandOnce]

theorem changes_array (items : List Tree) (mark : Mark) :
    directive.changes (.array items mark) = items.any directive.changes := by
  rw [← (directive.expandItemsOnce_eq items).2, changes, expandOnce]

theorem changes_text (text : String) (mark : Mark) :
    directive.changes (.leaf (some (.text text)) mark) = (directive.substitute text).2.1 := rfl

/-- Leaves without a text are left alone. -/
theorem leaf_cases (value : Option Scalar) (mark : Mark) :
    (∃ text, value = some (.text text)) ∨
      directive.rewrite (.leaf value mark) = .leaf value mark ∧
        directive.changes (.leaf value mark) = false ∧
        ∀ text, ¬ (Tree.leaf value mark).HasText text := by
  rcases value with _ | _ | _ | _ | _ | text
  case some.text => exact .inl ⟨text, rfl⟩
  all_goals exact .inr ⟨rfl, rfl, fun text h => nomatch h⟩

/-- A directive changes a tree exactly when it exchanges a placeholder in one of its texts. -/
theorem changes_iff {tree : Tree} :
    directive.changes tree = true ↔
      ∃ text, tree.HasText text ∧ (directive.substitute text).2.1 = true := by
  induction tree using Tree.induction with
  | leaf value mark =>
      rcases directive.leaf_cases value mark with ⟨text, rfl⟩ | ⟨_, hchanges, hnone⟩
      · rw [changes_text]
        constructor
        · exact fun h => ⟨text, .leaf mark, h⟩
        · rintro ⟨_, ⟨⟩, h⟩
          exact h
      · rw [hchanges]
        constructor
        · exact fun h => by cases h
        · rintro ⟨text, htext, _⟩
          exact (hnone text htext).elim
  | map entries mark ih =>
      rw [changes_map, List.any_eq_true]
      constructor
      · rintro ⟨⟨key, child⟩, hmem, h⟩
        obtain ⟨text, htext, hchanged⟩ := (ih key child hmem).mp h
        exact ⟨text, .entry hmem htext, hchanged⟩
      · rintro ⟨text, ⟨⟩ | ⟨hmem, htext⟩ | _, hchanged⟩
        exact ⟨_, hmem, (ih _ _ hmem).mpr ⟨text, htext, hchanged⟩⟩
  | array items mark ih =>
      rw [changes_array, List.any_eq_true]
      constructor
      · rintro ⟨item, hmem, h⟩
        obtain ⟨text, htext, hchanged⟩ := (ih item hmem).mp h
        exact ⟨text, .item hmem htext, hchanged⟩
      · rintro ⟨text, ⟨⟩ | _ | ⟨hmem, htext⟩, hchanged⟩
        exact ⟨_, hmem, (ih _ hmem).mpr ⟨text, htext, hchanged⟩⟩

/-- A directive that changes nothing leaves the tree as it is, origins included. -/
theorem rewrite_of_not_changes {tree : Tree} (h : directive.changes tree = false) :
    directive.rewrite tree = tree := by
  induction tree using Tree.induction with
  | leaf value mark =>
      rcases directive.leaf_cases value mark with ⟨text, rfl⟩ | ⟨hrewrite, _⟩
      · rw [changes_text] at h
        rw [rewrite_text, h]
        rfl
      · exact hrewrite
  | map entries mark ih =>
      rw [changes_map, List.any_eq_false] at h
      rw [rewrite_map, List.map_congr_left (g := fun entry => entry), List.map_id']
      intro entry hmem
      rw [ih entry.1 entry.2 hmem (Bool.eq_false_iff.mpr (h entry hmem))]
  | array items mark ih =>
      rw [changes_array, List.any_eq_false] at h
      rw [rewrite_array, List.map_congr_left (g := fun item => item), List.map_id']
      exact fun item hmem => ih item hmem (Bool.eq_false_iff.mpr (h item hmem))

theorem keepsStructure_rewrite : Tree.KeepsStructure directive.rewrite where
  child {tree} _ path segment := by
    cases tree with
    | leaf value mark =>
        rcases directive.leaf_cases value mark with ⟨text, rfl⟩ | ⟨hrewrite, _⟩
        · rw [rewrite_text]
          split <;> simp [Tree.child, Tree.isEmpty, Except.map]
        · rw [hrewrite, Tree.child]
          split <;> rfl
    | map entries mark =>
        rw [rewrite_map]
        exact Tree.child_map directive.rewrite mark path segment entries
    | array items mark =>
        rw [rewrite_array]
        exact Tree.child_array directive.rewrite mark path segment items
  lookup {tree} _ key := by
    cases tree with
    | leaf value mark =>
        rcases directive.leaf_cases value mark with ⟨text, rfl⟩ | ⟨hrewrite, _⟩
        · rw [rewrite_text]
          split <;> rfl
        · rw [hrewrite]
          rfl
    | map entries mark =>
        rw [rewrite_map]
        exact Entries.lookup_map directive.rewrite key entries
    | array items mark =>
        rw [rewrite_array]
        rfl
  isSecret tree := by
    cases tree with
    | leaf value mark =>
        rcases directive.leaf_cases value mark with ⟨text, rfl⟩ | ⟨hrewrite, _⟩
        · rw [rewrite_text]
          split <;> rfl
        · rw [hrewrite]
    | map entries mark =>
        rw [rewrite_map]
        rfl
    | array items mark =>
        rw [rewrite_array]
        rfl

end Directive

end LayeredConfig
