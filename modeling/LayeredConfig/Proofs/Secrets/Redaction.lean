import LayeredConfig.Proofs.Tree.Structure
import LayeredConfig.Tree.Secret

/-! # Redaction

What is secret comes out as the same text whatever it held, and what is not secret is redacted child
by child. So redaction agrees with navigation down to the first secret node on the way. -/

namespace LayeredConfig.Tree

/-! ## Node by node -/

theorem redactedEntries_eq (entries : List (String × Tree)) :
    redactedEntries entries = entries.map fun entry => (entry.1, entry.2.redacted) := by
  induction entries with
  | nil => rfl
  | cons entry rest ih => rw [redactedEntries, ih, List.map_cons]

theorem redactedItems_eq (items : List Tree) : redactedItems items = items.map redacted := by
  induction items with
  | nil => rfl
  | cons item rest ih => rw [redactedItems, ih, List.map_cons]

theorem redacted_of_isSecret {tree : Tree} (h : tree.isSecret = true) :
    tree.redacted = leaf (some (.text redactedText)) tree.mark := by
  cases tree <;> exact if_pos h

/-- What is secret is redacted alike whatever it holds. -/
theorem redacted_eq_of_isSecret {first second : Tree} (hmark : first.mark = second.mark)
    (hsecret : first.isSecret = true) : first.redacted = second.redacted := by
  have hsecond : second.isSecret = true := by
    rw [isSecret, ← hmark]
    exact hsecret
  rw [redacted_of_isSecret hsecret, redacted_of_isSecret hsecond, hmark]

theorem redacted_leaf {value : Option Scalar} {mark : Mark}
    (h : (leaf value mark).isSecret = false) : (leaf value mark).redacted = leaf value mark :=
  if_neg (Bool.eq_false_iff.mp h)

theorem redacted_map {entries : List (String × Tree)} {mark : Mark}
    (h : (map entries mark).isSecret = false) :
    (map entries mark).redacted =
      map (entries.map fun entry => (entry.1, entry.2.redacted)) mark := by
  rw [← redactedEntries_eq]
  exact if_neg (Bool.eq_false_iff.mp h)

theorem redacted_array {items : List Tree} {mark : Mark}
    (h : (array items mark).isSecret = false) :
    (array items mark).redacted = array (items.map redacted) mark := by
  rw [← redactedItems_eq]
  exact if_neg (Bool.eq_false_iff.mp h)

theorem mark_redacted (tree : Tree) : tree.redacted.mark = tree.mark := by
  cases tree <;> rw [redacted] <;> split <;> rfl

theorem childwise_redacted : Childwise (fun tree => tree.isSecret = false) redacted where
  child {tree} hsecret path segment := by
    cases tree with
    | leaf value mark =>
        rw [redacted_leaf hsecret, child]
        split <;> rfl
    | map entries mark =>
        rw [redacted_map hsecret]
        exact child_map redacted mark path segment entries
    | array items mark =>
        rw [redacted_array hsecret]
        exact child_array redacted mark path segment items
  lookup {tree} hsecret key := by
    cases tree with
    | leaf value mark =>
        rw [redacted_leaf hsecret]
        rfl
    | map entries mark =>
        rw [redacted_map hsecret]
        exact Entries.lookup_map redacted key entries
    | array items mark =>
        rw [redacted_array hsecret]
        rfl

/-! ## Open paths -/

/-- No secret node is passed on the way along a path; at its end there may be one. -/
def OpenTo (delimiter : String) (path : List String) (tree : Tree) : Prop :=
  ∀ above, above <+: path → above ≠ path →
    ∀ node, tree.fetch delimiter above = .ok node → node.isSecret = false

section OpenTo

variable {delimiter : String} {path : List String} {first second : Tree}

theorem OpenTo.mono {above : List String} (h : first.OpenTo delimiter path)
    (habove : above <+: path) : first.OpenTo delimiter above := by
  intro further hfurther hne
  refine h further (hfurther.trans habove) fun heq => hne ?_
  rw [heq] at hfurther ⊢
  exact hfurther.eq_of_length_le habove.length_le

theorem OpenTo.fetch_redacted (h : first.OpenTo delimiter path) :
    first.redacted.fetch delimiter path = (first.fetch delimiter path).map redacted :=
  childwise_redacted.fetch h

/-- Trees that are redacted alike are open to the same paths. -/
theorem OpenTo.of_redacted_eq (heq : first.redacted = second.redacted)
    (h : first.OpenTo delimiter path) : second.OpenTo delimiter path := by
  induction hlength : path.length using Nat.strongRecOn generalizing path with
  | ind length ih =>
    subst hlength
    intro above habove hne node hnode
    have hless : above.length < path.length :=
      Nat.lt_of_le_of_ne habove.length_le fun heq => hne (habove.eq_of_length heq)
    -- Both trees are open to the shorter path, so redaction finds the same node there in both.
    have hsecond := (ih _ hless (h.mono habove) rfl).fetch_redacted
    rw [← heq, (h.mono habove).fetch_redacted, hnode] at hsecond
    cases hfirst : first.fetch delimiter above with
    | error fault =>
        rw [hfirst] at hsecond
        cases hsecond
    | ok other =>
        rw [hfirst] at hsecond
        have hredacted : other.redacted = node.redacted := Except.ok.inj hsecond
        have hmark : other.mark = node.mark := by
          rw [← mark_redacted, hredacted, mark_redacted]
        rw [isSecret, ← hmark]
        exact h above habove hne other hfirst

theorem OpenTo.fetch_eq (heq : first.redacted = second.redacted)
    (h : first.OpenTo delimiter path) :
    (first.fetch delimiter path).map redacted = (second.fetch delimiter path).map redacted := by
  rw [← h.fetch_redacted, ← (h.of_redacted_eq heq).fetch_redacted, heq]

end OpenTo

/-! ## The first secret node -/

/-- The first secret node on the way along a path of keys, and the part of the path up to it. -/
structure FirstSecret (tree : Tree) (path before : List String) (node : Tree) : Prop where
  onPath : before <+: path
  found : tree.node? before = some node
  secret : node.isSecret = true
  first : ∀ above, above <+: before → above ≠ before →
    ∀ other, tree.node? above = some other → other.isSecret = false

theorem FirstSecret.root {tree : Tree} (path : List String) (h : tree.isSecret = true) :
    FirstSecret tree path [] tree where
  onPath := List.nil_prefix
  found := rfl
  secret := h
  first _ habove hne := (hne (List.prefix_nil.mp habove)).elim

theorem FirstSecret.below {tree child node : Tree} {key : String} {path before : List String}
    (hroot : tree.isSecret = false) (hchild : tree.entries.lookup key = some child)
    (h : FirstSecret child path before node) :
    FirstSecret tree (key :: path) (key :: before) node where
  onPath := List.cons_prefix_cons.mpr ⟨rfl, h.onPath⟩
  found := by
    rw [node?, hchild]
    exact h.found
  secret := h.secret
  first above habove hne other hother := by
    cases above with
    | nil =>
        cases hother
        exact hroot
    | cons head tail =>
        obtain ⟨rfl, htail⟩ := List.cons_prefix_cons.mp habove
        rw [node?, hchild] at hother
        exact h.first tail htail (fun heq => hne (by rw [heq])) other hother

/-- A path to a secret node meets a first one. -/
theorem exists_firstSecret {tree node : Tree} {path : List String}
    (hnode : tree.node? path = some node) (hsecret : node.isSecret = true) :
    ∃ before found, FirstSecret tree path before found := by
  induction path generalizing tree with
  | nil =>
      cases hnode
      exact ⟨[], node, .root [] hsecret⟩
  | cons key rest ih =>
      cases hroot : tree.isSecret with
      | true => exact ⟨[], tree, .root (key :: rest) hroot⟩
      | false =>
          obtain ⟨child, hchild, hnode⟩ := Option.bind_eq_some_iff.mp hnode
          obtain ⟨before, found, hfirst⟩ := ih hnode
          exact ⟨key :: before, found, hfirst.below hroot hchild⟩

/-- In the redacted tree the redaction text stands at the first secret node, and nothing else. -/
theorem FirstSecret.node?_redacted {tree node : Tree} {path before : List String}
    (h : FirstSecret tree path before node) :
    tree.redacted.node? before = some (leaf (some (.text redactedText)) node.mark) := by
  rw [childwise_redacted.node? h.first, h.found, Option.map_some, redacted_of_isSecret h.secret]

end LayeredConfig.Tree
