import LayeredConfig.Proofs.Documentation.Nodes
import LayeredConfig.Proofs.Documentation.Overlay
import LayeredConfig.Proofs.Outcomes
import LayeredConfig.Proofs.Tree.Steps

/-! # Defaults in documented trees

Documentation, a tree and its defaults are walked side by side, whatever their shapes. A default is
noted at the places where it differs from what the tree has, and nowhere else. -/

namespace LayeredConfig

/-! ## Steps -/

/-- What is said about the parts of a place. What is said about the elements of an array goes with
the first one. -/
def Documentation.part? : Step → Documentation → Option Documentation
  | .name name, documentation => documentation.child? name
  | .item 0, documentation => documentation.child? ReservedName.array.text
  | .item _, _ => none

theorem Documentation.DistinctNames.part? {documentation part : Documentation}
    (hnames : documentation.DistinctNames) {step : Step}
    (h : documentation.part? step = some part) : part.DistinctNames := by
  match step with
  | .name _ | .item 0 => exact hnames.of_lookup h

namespace Documented

/-- The children of an array stand under their numbers. -/
def part? : Step → Documented → Option Documented
  | .name name, documented =>
    if documented.note.isArray then none else documented.children.get? name
  | .item index, documented =>
    if documented.note.isArray then documented.children.get? (toString index) else none

/-! ## One level of the overlay -/

/-- The overlay at one place, where each side may be missing. -/
def unify (level : Int) (name : Option String) (documentation : Option Documentation)
    (tree presets : Option Tree) : Except Fault Documented :=
  match documentation, tree with
  | documentation, some tree => ofTree level name documentation presets tree
  | some documentation, none => ofDocumentation level name documentation
  | none, none => .ok (node { name, level } [])

/-- What one level of the overlay can be. -/
inductive Unified (level : Int) (documentation : Option Documentation)
    (tree presets : Option Tree) : Documented → Prop
  /-- Nothing but documentation, and that of no keys. -/
  | absent {note : DocumentedNote} (htree : tree = none)
      (hdocumentation : note.documentation = documentation) (hpreset : note.preset = none) :
      Unified level documentation tree presets (node note [])
  | bare {note : DocumentedNote} {live : Tree} (htree : tree = some live)
      (hbare : live.entries = [] ∧ live.items = []) (hkeys : describesKeys documentation = false)
      (hdocumentation : note.documentation = documentation)
      (hpreset : note.preset = presetOf presets (proper? live.scalar?)) :
      Unified level documentation tree presets (node note [])
  | map {note : DocumentedNote} {documented : Documented}
      (hkeys : describesKeys documentation = true ∨ ∃ live, tree = some live ∧ live.entries ≠ [])
      (hdocumentation : note.documentation = documentation) (hpreset : note.preset = none)
      (harray : note.isArray = false)
      (hchildren : ofChildren note
        (ofEntries level documentation presets ((tree.map Tree.entries).getD []) ++
          missing level documentation ((tree.map Tree.entries).getD [])) = .ok documented) :
      Unified level documentation tree presets documented
  | array {note : DocumentedNote} {live : Tree} {children : List (String × Documented)}
      (htree : tree = some live) (hitems : live.items ≠ [])
      (hdocumentation : note.documentation = documentation) (hpreset : note.preset = none)
      (harray : note.isArray = true)
      (hchildren : ofItems level 0 (documentation.bind (·.child? ReservedName.array.text))
        ((presets.map Tree.items).getD []) live.items = .ok children) :
      Unified level documentation tree presets (node note children)

variable {level : Int} {documentation : Option Documentation} {tree presets : Option Tree}
  {documented : Documented}

namespace Unified

variable (h : Unified level documentation tree presets documented)

include h

end Unified

/-! ## Steps into the overlay -/

theorem unify_some (level : Int) (name : Option String) (documentation : Option Documentation)
    (tree : Tree) (presets : Option Tree) :
    unify level name documentation (some tree) presets =
      ofTree level name documentation presets tree := by
  cases documentation <;> rfl

/-- What is put under a name is an overlay of what the sides have under it. -/
theorem unify_of_mem {entries : List (String × Tree)} {name : String} {child : Documented}
    (hentries : (Entries.keys entries).Nodup)
    (hnames : ∀ whole ∈ documentation, whole.DistinctNames)
    (h : (name, .ok child) ∈
      ofEntries level documentation presets entries ++ missing level documentation entries) :
    unify level (some name) (documentation.bind (·.child? name)) (List.lookup name entries)
      (presets.bind fun presets => presets.entries.get? name) = .ok child := by
  rcases List.mem_append.mp h with h | h
  · rw [ofEntries_eq] at h
    obtain ⟨⟨_, live⟩, hlive, heq⟩ := List.mem_map.mp h
    obtain ⟨rfl, hchild⟩ := Prod.mk.inj heq
    rw [Entries.lookup_of_mem hentries hlive, unify_some]
    exact hchild
  · rw [missing, ofDocumentationChildren_eq] at h
    obtain ⟨⟨key, said⟩, hsaid, heq⟩ := List.mem_map.mp h
    obtain ⟨rfl, hchild⟩ := Prod.mk.inj heq
    cases documentation with
    | none => exact (List.not_mem_nil (List.mem_filter.mp hsaid).1).elim
    | some whole =>
        obtain ⟨hmem, hlacks⟩ := List.mem_filter.mp hsaid
        have hfound : whole.child? key = some said :=
          Entries.lookup_of_mem (hnames whole rfl).keys_nodup hmem
        have hnone : List.lookup key entries = none := by
          simpa [Entries.has, Entries.get?] using hlacks
        rw [Option.bind_some, hfound, hnone]
        exact hchild

/-- What is put under a number is an overlay of the items with that number. -/
theorem unify_of_ofItems {index : Nat} {element : Option Documentation} {presets items : List Tree}
    {children : List (String × Documented)}
    (h : ofItems level index element presets items = .ok children) {name : String}
    {child : Documented} (hchild : (name, child) ∈ children) :
    ∃ offset, name = toString (index + offset) ∧
      unify level none (if offset = 0 then element else none) items[offset]? presets[offset]? =
        .ok child := by
  induction items generalizing index element presets children with
  | nil =>
      cases h
      exact (List.not_mem_nil hchild).elim
  | cons item rest ih =>
      rw [ofItems] at h
      obtain ⟨first, hfirst, h⟩ := exists_of_bind_eq_ok h
      obtain ⟨others, hothers, h⟩ := exists_of_bind_eq_ok h
      cases h
      rcases List.mem_cons.mp hchild with heq | hchild
      · cases heq
        refine ⟨0, rfl, ?_⟩
        rw [List.getElem?_cons_zero, unify_some, if_pos rfl, ← List.head?_eq_getElem?]
        exact hfirst
      · obtain ⟨offset, hname, hunify⟩ := ih hothers hchild
        refine ⟨offset + 1, by rw [hname, Nat.add_assoc, Nat.add_comm 1], ?_⟩
        rw [List.getElem?_cons_succ, if_neg (Nat.succ_ne_zero offset)]
        rwa [ite_self, List.getElem?_tail] at hunify

/-- A step into the overlay is a step into each of its sides. -/
theorem Unified.part (h : Unified level documentation tree presets documented)
    (htree : ∀ live ∈ tree, live.DistinctKeys)
    (hnames : ∀ whole ∈ documentation, whole.DistinctNames) {step : Step} {child : Documented}
    (hpart : documented.part? step = some child) :
    ∃ name, unify level name (documentation.bind (Documentation.part? step))
      (tree.bind (Tree.part? step)) (presets.bind (Tree.part? step)) = .ok child := by
  cases h with
  | absent | bare => cases step <;> simp [Documented.part?, children, Entries.get?] at hpart
  | @map note documented _ _ _ harray hchildren =>
      have hplaced := placed_of_ofChildren hchildren
      have hmap : documented.note.isArray = false := hplaced.isArray.trans harray
      cases step with
      | item index => simp [Documented.part?, hmap] at hpart
      | name name =>
          have hchild : documented.children.get? name = some child := by
            simpa [Documented.part?, hmap] using hpart
          have hnodup : (Entries.keys ((tree.map Tree.entries).getD [])).Nodup := by
            cases tree with
            | none => exact List.nodup_nil
            | some live => exact (htree live rfl).nodup_entries
          have hunify := unify_of_mem hnodup hnames
            (hplaced.mem_results (Entries.mem_of_lookup hchild))
          have hlive : tree.bind (Tree.part? (.name name)) =
              List.lookup name ((tree.map Tree.entries).getD []) := by
            cases tree <;> rfl
          exact ⟨some name, hlive ▸ hunify⟩
  | @array note live children htree' _ _ _ harray hchildren =>
      cases step with
      | name name => simp [Documented.part?, Documented.note, harray] at hpart
      | item index =>
          have hchild : Entries.get? (toString index) children = some child := by
            simpa [Documented.part?, Documented.note, Documented.children, harray] using hpart
          obtain ⟨offset, hindex, hunify⟩ :=
            unify_of_ofItems hchildren (Entries.mem_of_lookup hchild)
          obtain rfl : index = offset := by simpa using Nat.repr_injective hindex
          have hpresets : presets.bind (Tree.part? (.item index)) =
              ((presets.map Tree.items).getD [])[index]? := by
            cases presets <;> simp [Tree.part?]
          have hsaid : documentation.bind (Documentation.part? (.item index)) =
              if index = 0 then documentation.bind (·.child? ReservedName.array.text)
              else none := by
            cases index <;> cases documentation <;> rfl
          refine ⟨none, ?_⟩
          rw [htree', Option.bind_some, hpresets, hsaid]
          exact hunify

end Documented

end LayeredConfig
