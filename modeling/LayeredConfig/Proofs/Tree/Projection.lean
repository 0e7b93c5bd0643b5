import LayeredConfig.Proofs.Outcomes
import LayeredConfig.Proofs.Record.Types
import LayeredConfig.Proofs.Tree.Navigation
import LayeredConfig.Proofs.Tree.Nodes
import LayeredConfig.Value.OfTree

/-! # Navigation in projected data

A tree that was projected into plain data is walked by looking up keys and indices. The walk leads
to the data of the node to which navigation leads, and it breaks off where navigation does. -/

namespace LayeredConfig

namespace Value

/-- The index that a segment spells. -/
def index? (segment : String) : Option Nat :=
  if segment.isEmpty || !segment.toList.all Text.isDecimalDigit then none
  else some (Text.digitsValue segment.toList)

/-- The entry or the item of plain data that a segment names. -/
def part? (segment : String) : Value → Option Value
  | dict entries => entry? segment entries
  | list items => (index? segment).bind fun index => items[index]?
  | _ => none

/-- Plain data walked segment by segment. -/
def walk? : List String → Value → Option Value
  | [], data => some data
  | segment :: rest, data => (data.part? segment).bind (walk? rest)

end Value

namespace Tree

/-- The data of a tree, exact or with binary numbers. -/
def projected (exact : Bool) (tree : Tree) : Except Fault Value :=
  if exact then .ok tree.toValue else tree.toRounded

variable {exact : Bool} {tree node : Tree} {data : Value}

/-! ## Level by level -/

theorem isScalar_of_projected_leaf {value : Option Scalar} {mark : Mark}
    (h : (leaf value mark).projected exact = .ok data) : data.isScalar = true := by
  cases exact with
  | true =>
      cases h
      cases value with
      | none => rfl
      | some scalar => cases scalar <;> rfl
  | false =>
      cases value with
      | none => cases h; rfl
      | some scalar =>
          cases scalar with
          | float number =>
              change (if number.isSignaling then _ else _) = _ at h
              split at h <;> cases h
              rfl
          | _ => cases h; rfl

theorem exists_of_projected_map {entries : List (String × Tree)} {mark : Mark}
    (h : (map entries mark).projected exact = .ok data) :
    ∃ rows, data = .dict rows ∧
      List.Forall₂ (fun entry row => row.1 = .text entry.1 ∧ entry.2.projected exact = .ok row.2)
        entries rows := by
  cases exact with
  | true =>
      cases h
      refine ⟨_, rfl, ?_⟩
      induction entries with
      | nil => exact .nil
      | cons entry rest ih => exact .cons ⟨rfl, rfl⟩ ih
  | false =>
      obtain ⟨rows, hrows, rfl⟩ := exists_of_map_eq_ok h
      refine ⟨rows, rfl, ?_⟩
      clear h
      induction entries generalizing rows with
      | nil =>
          cases hrows
          exact .nil
      | cons entry rest ih =>
          obtain ⟨value, hvalue, hrows⟩ := exists_of_bind_eq_ok hrows
          obtain ⟨others, hothers, hrows⟩ := exists_of_bind_eq_ok hrows
          cases hrows
          exact .cons ⟨rfl, hvalue⟩ (ih others hothers)

theorem exists_of_projected_array {items : List Tree} {mark : Mark}
    (h : (array items mark).projected exact = .ok data) :
    ∃ parts, data = .list parts ∧
      List.Forall₂ (fun item part => item.projected exact = .ok part) items parts := by
  cases exact with
  | true =>
      cases h
      refine ⟨_, rfl, ?_⟩
      induction items with
      | nil => exact .nil
      | cons item rest ih => exact .cons rfl ih
  | false =>
      obtain ⟨parts, hparts, rfl⟩ := exists_of_map_eq_ok h
      refine ⟨parts, rfl, ?_⟩
      clear h
      induction items generalizing parts with
      | nil =>
          cases hparts
          exact .nil
      | cons item rest ih =>
          obtain ⟨value, hvalue, hparts⟩ := exists_of_bind_eq_ok hparts
          obtain ⟨others, hothers, hparts⟩ := exists_of_bind_eq_ok hparts
          cases hparts
          exact .cons hvalue (ih others hothers)

/-! ## Segment by segment -/

/-- What a segment leads to in the tree and in its data: nothing in both, or a node and its data. -/
abbrev InStep (exact : Bool) : Option Tree → Option Value → Prop :=
  Option.Rel fun node part => node.projected exact = .ok part

theorem inStep_entry {entries : List (String × Tree)} {rows : List (Value × Value)}
    (h : List.Forall₂
      (fun entry row => row.1 = .text entry.1 ∧ entry.2.projected exact = .ok row.2) entries rows)
    (segment : String) :
    InStep exact (entries.lookup segment) (Value.entry? segment rows) := by
  induction h with
  | nil => exact .none
  | @cons entry row rest others hrow _ ih =>
      obtain ⟨key, child⟩ := entry
      obtain ⟨key', value⟩ := row
      obtain ⟨rfl, hvalue⟩ := hrow
      rw [Entries.lookup_cons]
      unfold Value.entry? at ih ⊢
      by_cases hkey : segment = key
      · subst hkey
        simpa [Value.sameKey_text] using Option.Rel.some hvalue
      · simpa [Value.sameKey_text, hkey, Ne.symm hkey] using ih

theorem inStep_item {items : List Tree} {parts : List Value}
    (h : List.Forall₂ (fun item part => item.projected exact = .ok part) items parts)
    (index : Nat) : InStep exact items[index]? parts[index]? := by
  induction h generalizing index with
  | nil => exact .none
  | cons hpart _ ih =>
      cases index with
      | zero => exact .some hpart
      | succ index => exact ih index

theorem inStep_child (h : tree.projected exact = .ok data) (path segment : String) :
    InStep exact (tree.child path segment).toOption (data.part? segment) := by
  cases tree with
  | leaf value mark =>
      have hnone : data.part? segment = none := by
        have hscalar := isScalar_of_projected_leaf h
        cases data <;> first | rfl | cases hscalar
      rw [child, hnone]
      split <;> exact .none
  | map entries mark =>
      obtain ⟨rows, rfl, hrows⟩ := exists_of_projected_map h
      have hentry := inStep_entry hrows segment
      rw [child, Value.part?]
      cases hlookup : List.lookup segment entries with
      | none => rwa [hlookup] at hentry
      | some found => rwa [hlookup] at hentry
  | array items mark =>
      obtain ⟨parts, rfl, hparts⟩ := exists_of_projected_array h
      rw [child, Value.part?, Value.index?]
      split
      · exact .none
      · have hitem := inStep_item hparts (Text.digitsValue segment.toList)
        dsimp only [Option.bind]
        cases hindex : items[Text.digitsValue segment.toList]? with
        | none => rwa [hindex] at hitem
        | some found => rwa [hindex] at hitem

theorem inStep_fetchFrom (h : tree.projected exact = .ok data) (delimiter : String)
    (passed path : List String) :
    InStep exact (tree.fetchFrom delimiter passed path).toOption (data.walk? path) := by
  induction path generalizing passed tree data with
  | nil => exact .some h
  | cons segment rest ih =>
      have hchild := inStep_child h (delimiter.intercalate (passed ++ [segment])) segment
      rw [fetchFrom, Value.walk?]
      cases hnext : tree.child (delimiter.intercalate (passed ++ [segment])) segment with
      | error fault =>
          rw [hnext] at hchild
          generalize data.part? segment = part at hchild
          cases hchild
          exact .none
      | ok next =>
          rw [hnext] at hchild
          generalize data.part? segment = part at hchild
          cases hchild with
          | some hpart => exact ih hpart _

/-- The walk through the data of a tree leads to the data of the node at the path. -/
theorem exists_of_fetch_projected {delimiter : String} {path : List String}
    (h : tree.projected exact = .ok data) (hnode : tree.fetch delimiter path = .ok node) :
    ∃ part, node.projected exact = .ok part ∧ data.walk? path = some part := by
  have hstep := inStep_fetchFrom h delimiter [] path
  rw [← fetch, hnode] at hstep
  generalize data.walk? path = part? at hstep ⊢
  cases hstep with
  | some hpart => exact ⟨_, hpart, rfl⟩

/-! ## Trees that have data -/

/-- No number in the tree is a signaling not-a-number, for which there is no binary number. -/
def IsQuiet (tree : Tree) : Prop :=
  ∀ node ∈ tree.nodes, ∀ number, node.scalar? = some (.float number) → number.isSignaling = false

theorem IsQuiet.child {entries : List (String × Tree)} {mark : Mark}
    (h : (map entries mark).IsQuiet) {key : String} {child : Tree}
    (hchild : (key, child) ∈ entries) : child.IsQuiet :=
  fun _ hnode => h _ (mem_nodes_child hchild hnode)

theorem IsQuiet.item {items : List Tree} {mark : Mark} (h : (array items mark).IsQuiet)
    {item : Tree} (hitem : item ∈ items) : item.IsQuiet :=
  fun _ hnode => h _ (mem_nodes_item hitem hnode)

theorem exists_toRounded (h : tree.IsQuiet) : ∃ data, tree.toRounded = .ok data := by
  induction tree using Tree.induction with
  | leaf value mark =>
      cases value with
      | none => exact ⟨.null, rfl⟩
      | some scalar =>
          cases scalar with
          | float number =>
              have hnumber := h _ (mem_nodes_self _) number rfl
              exact ⟨_, if_neg (Bool.eq_false_iff.mp hnumber)⟩
          | _ => exact ⟨_, rfl⟩
  | map entries mark ih =>
      have hchildren (key child) (hchild : (key, child) ∈ entries) :
          ∃ data, child.toRounded = .ok data := ih key child hchild (h.child hchild)
      clear h ih
      suffices ∃ rows, entriesToRounded entries = .ok rows by
        obtain ⟨rows, hrows⟩ := this
        exact ⟨.dict rows, by rw [toRounded, hrows]; rfl⟩
      induction entries with
      | nil => exact ⟨[], rfl⟩
      | cons entry rest ih =>
          obtain ⟨key, child⟩ := entry
          obtain ⟨value, hvalue⟩ := hchildren key child List.mem_cons_self
          obtain ⟨rows, hrows⟩ := ih fun key child hchild =>
            hchildren key child (List.mem_cons_of_mem _ hchild)
          exact ⟨_, by rw [entriesToRounded, hvalue, hrows]; rfl⟩
  | array items mark ih =>
      have hitems (item) (hitem : item ∈ items) : ∃ data, item.toRounded = .ok data :=
        ih item hitem (h.item hitem)
      clear h ih
      suffices ∃ parts, itemsToRounded items = .ok parts by
        obtain ⟨parts, hparts⟩ := this
        exact ⟨.list parts, by rw [toRounded, hparts]; rfl⟩
      induction items with
      | nil => exact ⟨[], rfl⟩
      | cons item rest ih =>
          obtain ⟨value, hvalue⟩ := hitems item List.mem_cons_self
          obtain ⟨parts, hparts⟩ := ih fun item hitem => hitems item (List.mem_cons_of_mem _ hitem)
          exact ⟨_, by rw [itemsToRounded, hvalue, hparts]; rfl⟩

theorem IsQuiet.exists_projected (h : tree.IsQuiet) (exact : Bool) :
    ∃ data, tree.projected exact = .ok data := by
  cases exact with
  | true => exact ⟨tree.toValue, rfl⟩
  | false => exact exists_toRounded h

end Tree

end LayeredConfig
