import LayeredConfig.Documentation.Documented
import LayeredConfig.Proofs.Order.Numbered
import Mathlib

/-! # Values in documented trees

Documentation is laid over a tree without inventing values: a scalar shows only where the tree has
it. It gets lost where documentation describes keys in the place of a scalar, and under the names
that are reserved for what is said about the keys and values of a map. -/

namespace LayeredConfig

/-! ## Places by names -/

/-- The nodes of a tree by the names on the way to them: keys of maps, and numbers of items. -/
inductive Tree.At : List String → Tree → Tree → Prop
  | here (tree : Tree) : At [] tree tree
  | key {name : String} {child node : Tree} {entries : List (String × Tree)} {mark : Mark}
      {path : List String} (hchild : (name, child) ∈ entries) (hnode : At path child node) :
      At (name :: path) (.map entries mark) node
  | item {index : Nat} {item node : Tree} {items : List Tree} {mark : Mark} {path : List String}
      (hitem : items[index]? = some item) (hnode : At path item node) :
      At (toString index :: path) (.array items mark) node

namespace Documented

/-- The nodes of a documented tree by the names on the way to them. -/
inductive At : List String → Documented → Documented → Prop
  | here (documented : Documented) : At [] documented documented
  | child {name : String} {child node documented : Documented} {path : List String}
      (hchild : (name, child) ∈ documented.children) (hnode : At path child node) :
      At (name :: path) documented node

/-! ## Children of a map -/

/-- Children below a note, behind those that are there: all but those with reserved names. -/
structure Placed (note : DocumentedNote) (built : List (String × Documented))
    (results : List (String × Except Fault Documented)) (documented : Documented) : Prop where
  documentation : documented.note.documentation = note.documentation
  scalar : documented.note.scalar = note.scalar
  isArray : documented.note.isArray = note.isArray
  mem_children : ∀ name child, (name, child) ∈ documented.children ↔
    (name, child) ∈ built ∨ (name, .ok child) ∈ results ∧ ReservedName.ofText? name = none
  exists_ok : ∀ name result, (name, result) ∈ results → ReservedName.ofText? name = none →
    ∃ child, result = .ok child

theorem Placed.reserved {note : DocumentedNote} {built : List (String × Documented)}
    {results : List (String × Except Fault Documented)} {documented : Documented}
    (h : Placed note built results documented) {name : String}
    (hname : ReservedName.ofText? name ≠ none) (result : Except Fault Documented) :
    Placed note built ((name, result) :: results) documented where
  documentation := h.documentation
  scalar := h.scalar
  isArray := h.isArray
  mem_children other child := by
    rw [h.mem_children]
    refine or_congr_right (and_congr_left fun hother => ?_)
    rw [List.mem_cons, or_iff_right]
    intro heq
    cases heq
    exact hname hother
  exists_ok other found hmem hother := by
    rcases List.mem_cons.mp hmem with heq | hmem
    · cases heq
      exact (hname hother).elim
    · exact h.exists_ok other found hmem hother

theorem placed_of_place {note : DocumentedNote} {built : List (String × Documented)}
    {results : List (String × Except Fault Documented)} {documented : Documented}
    (h : place note built results = .ok documented) : Placed note built results documented := by
  induction results generalizing note built with
  | nil =>
      cases h
      exact ⟨rfl, rfl, rfl, by simp [children], by simp⟩
  | cons result rest ih =>
      obtain ⟨name, result⟩ := result
      unfold place at h
      split at h
      · exact nomatch h
      · exact nomatch h
      -- What the tree has under a reserved name is left out like the rest.
      · next hname =>
        have hplaced := (ih h).reserved (by rw [hname]; exact Option.some_ne_none _) result
        exact ⟨hplaced.documentation, hplaced.scalar, hplaced.isArray, hplaced.mem_children,
          hplaced.exists_ok⟩
      · next hname =>
        have hplaced := (ih h).reserved (by rw [hname]; exact Option.some_ne_none _) result
        exact ⟨hplaced.documentation, hplaced.scalar, hplaced.isArray, hplaced.mem_children,
          hplaced.exists_ok⟩
      · next hname =>
        split at h
        · next child =>
          have hplaced := ih h
          refine ⟨hplaced.documentation, hplaced.scalar, hplaced.isArray, fun other found => ?_,
            fun other found hmem hother => ?_⟩
          · rw [hplaced.mem_children, List.mem_append, List.mem_singleton, List.mem_cons, or_assoc]
            refine or_congr_right ⟨?_, ?_⟩
            · rintro (heq | ⟨hmem, hother⟩)
              · cases heq
                exact ⟨.inl rfl, hname⟩
              · exact ⟨.inr hmem, hother⟩
            · rintro ⟨heq | hmem, hother⟩
              · cases heq
                exact .inl rfl
              · exact .inr ⟨hmem, hother⟩
          · rcases List.mem_cons.mp hmem with heq | hmem
            · cases heq
              exact ⟨child, rfl⟩
            · exact hplaced.exists_ok other found hmem hother
        · exact nomatch h

theorem placed_of_ofChildren {note : DocumentedNote}
    {results : List (String × Except Fault Documented)} {documented : Documented}
    (h : ofChildren note results = .ok documented) : Placed note [] results documented := by
  have hplaced := placed_of_place h
  exact ⟨hplaced.documentation, hplaced.scalar, hplaced.isArray,
    by simpa only [List.mem_mergeSort] using hplaced.mem_children,
    by simpa only [List.mem_mergeSort] using hplaced.exists_ok⟩

theorem Placed.mem_results {note : DocumentedNote}
    {results : List (String × Except Fault Documented)} {documented : Documented}
    (h : Placed note [] results documented) {name : String} {child : Documented}
    (hchild : (name, child) ∈ documented.children) : (name, .ok child) ∈ results := by
  rcases (h.mem_children name child).mp hchild with hbuilt | ⟨hmem, -⟩
  · exact (List.not_mem_nil hbuilt).elim
  · exact hmem

/-! ## Places that only documentation knows -/

theorem ofDocumentationChildren_eq (level : Int) (children : List (String × Documentation)) :
    ofDocumentationChildren level children =
      children.map fun child => (child.1, ofDocumentation level (some child.1) child.2) := by
  induction children with
  | nil => rfl
  | cons child rest ih => rw [ofDocumentationChildren, ih, List.map_cons]

/-- A documented tree below a key that the tree lacks. -/
def OnlyDocumented (documented : Documented) : Prop :=
  ∃ level name documentation, ofDocumentation level name documentation = .ok documented

theorem onlyDocumented_of_mem {level : Int} {name : String} {child : Documented}
    {children : List (String × Documentation)}
    (h : (name, .ok child) ∈ ofDocumentationChildren level children) : OnlyDocumented child := by
  induction children with
  | nil => exact (List.not_mem_nil h).elim
  | cons first rest ih =>
      rw [ofDocumentationChildren] at h
      rcases List.mem_cons.mp h with heq | h
      · exact ⟨level, some first.1, first.2, (Prod.mk.inj heq).2.symm⟩
      · exact ih h

theorem OnlyDocumented.note {documented node : Documented} {path : List String}
    (h : OnlyDocumented documented) (hnode : At path documented node) :
    node.note.scalar = none ∧ node.note.isArray = false := by
  induction hnode with
  | here documented =>
      obtain ⟨level, name, ⟨note, children⟩, h⟩ := h
      rw [ofDocumentation] at h
      split at h
      · cases h
        exact ⟨rfl, rfl⟩
      · have hplaced := placed_of_ofChildren h
        exact ⟨hplaced.scalar, hplaced.isArray⟩
  | child hchild hnode ih =>
      obtain ⟨level, name, ⟨note, children⟩, h⟩ := h
      rw [ofDocumentation] at h
      split at h
      · cases h
        exact (List.not_mem_nil hchild).elim
      · exact ih (onlyDocumented_of_mem ((placed_of_ofChildren h).mem_results hchild))

/-! ## One level of the overlay -/

/-- A documented tree that was laid over a tree, with whatever documentation and defaults. -/
def LaidOver (tree : Tree) (documented : Documented) : Prop :=
  ∃ level name documentation presets,
    ofTree level name documentation presets tree = .ok documented

theorem ofEntries_eq (level : Int) (documentation : Option Documentation) (presets : Option Tree)
    (entries : List (String × Tree)) :
    ofEntries level documentation presets entries = entries.map fun entry =>
      (entry.1, ofTree level (some entry.1) (documentation.bind (·.child? entry.1))
        (presets.bind fun presets => presets.entries.get? entry.1) entry.2) := by
  induction entries with
  | nil => rfl
  | cons entry rest ih => rw [ofEntries, ih, List.map_cons]

theorem exists_mem_ofEntries (level : Int) (documentation : Option Documentation)
    (presets : Option Tree) {entries : List (String × Tree)} {name : String} {child : Tree}
    (h : (name, child) ∈ entries) :
    ∃ result, (name, result) ∈ ofEntries level documentation presets entries ∧
      ∀ below, result = .ok below → LaidOver child below := by
  rw [ofEntries_eq]
  exact ⟨_, List.mem_map_of_mem h, fun below hbelow => ⟨_, _, _, _, hbelow⟩⟩

theorem laidOver_of_mem_ofEntries {level : Int} {documentation : Option Documentation}
    {presets : Option Tree} {entries : List (String × Tree)} {name : String} {below : Documented}
    (h : (name, .ok below) ∈ ofEntries level documentation presets entries) :
    ∃ child, (name, child) ∈ entries ∧ LaidOver child below := by
  rw [ofEntries_eq] at h
  obtain ⟨⟨_, child⟩, hchild, heq⟩ := List.mem_map.mp h
  obtain ⟨rfl, hbelow⟩ := Prod.mk.inj heq
  exact ⟨child, hchild, _, _, _, _, hbelow⟩

/-- Items stand under their numbers, in their order. -/
theorem ofItems_eq_ok {level : Int} {index : Nat} {element : Option Documentation}
    {presets items : List Tree} {children : List (String × Documented)}
    (h : ofItems level index element presets items = .ok children) :
    children.map (·.1) = (List.range' index items.length).map toString ∧
      List.Forall₂ (fun item child => LaidOver item child.2) items children := by
  induction items generalizing index element presets children with
  | nil =>
      cases h
      exact ⟨rfl, .nil⟩
  | cons item rest ih =>
      rw [ofItems] at h
      cases hfirst : ofTree level none element presets.head? item with
      | error fault =>
          rw [hfirst] at h
          exact nomatch h
      | ok first =>
          cases hothers : ofItems level (index + 1) none presets.tail rest with
          | error fault =>
              rw [hfirst, hothers] at h
              exact nomatch h
          | ok others =>
              rw [hfirst, hothers] at h
              cases h
              obtain ⟨hnames, hlaid⟩ := ih hothers
              refine ⟨?_, .cons ⟨_, _, _, _, hfirst⟩ hlaid⟩
              rw [List.map_cons, hnames, List.length_cons, List.range'_succ, List.map_cons]

/-- What one level of the overlay can be. -/
inductive Overlaid : Tree → Documented → Prop
  /-- Below a node without children there is only what documentation describes. If that is keys, the
  node has no scalar. -/
  | bare {tree : Tree} {documented : Documented} (hbare : tree.entries = [] ∧ tree.items = [])
      (hscalar : documented.note.scalar = none ∧
          describesKeys documented.note.documentation = true ∨
        documented.note.scalar = proper? tree.scalar?)
      (harray : documented.note.isArray = false)
      (hchildren : ∀ name below, (name, below) ∈ documented.children → OnlyDocumented below) :
      Overlaid tree documented
  | map {entries : List (String × Tree)} {mark : Mark} {documented : Documented}
      (hscalar : documented.note.scalar = none) (harray : documented.note.isArray = false)
      (hentries : ∀ name child, (name, child) ∈ entries → ReservedName.ofText? name = none →
        ∃ below, LaidOver child below ∧ (name, below) ∈ documented.children)
      (hchildren : ∀ name below, (name, below) ∈ documented.children → OnlyDocumented below ∨
        ∃ child, (name, child) ∈ entries ∧ LaidOver child below) :
      Overlaid (.map entries mark) documented
  | array {items : List Tree} {mark : Mark} {documented : Documented}
      (hscalar : documented.note.scalar = none)
      (hnames : documented.children.map (·.1) = (List.range items.length).map toString)
      (hitems : List.Forall₂ (fun item child => LaidOver item child.2) items documented.children) :
      Overlaid (.array items mark) documented

theorem Placed.overlaid {note : DocumentedNote} {level : Int} {tree : Tree}
    {documented : Documented}
    (h : Placed note [] (missing level note.documentation []) documented)
    (hkeys : describesKeys note.documentation = true) (hbare : tree.entries = [] ∧ tree.items = [])
    (hscalar : note.scalar = none) (harray : note.isArray = false) : Overlaid tree documented :=
  .bare hbare (.inl ⟨h.scalar.trans hscalar, h.documentation ▸ hkeys⟩) (h.isArray.trans harray)
    fun _ _ hmem => onlyDocumented_of_mem (h.mem_results hmem)

theorem overlaid_of_laidOver {tree : Tree} {documented : Documented}
    (h : LaidOver tree documented) : Overlaid tree documented := by
  obtain ⟨level, name, documentation, presets, h⟩ := h
  cases tree with
  | leaf value mark =>
      rw [ofTree] at h
      split at h
      · next hkeys => exact (placed_of_ofChildren h).overlaid hkeys ⟨rfl, rfl⟩ rfl rfl
      · cases h
        exact .bare ⟨rfl, rfl⟩ (.inr rfl) rfl fun _ _ hmem => (List.not_mem_nil hmem).elim
  | map entries mark =>
      rw [ofTree] at h
      split at h
      · next hempty =>
        cases h
        rw [Bool.and_eq_true, List.isEmpty_iff] at hempty
        exact .bare ⟨hempty.1, rfl⟩ (.inr rfl) rfl fun _ _ hmem => (List.not_mem_nil hmem).elim
      · split at h
        · exact nomatch h
        · have hplaced := placed_of_ofChildren h
          refine .map hplaced.scalar hplaced.isArray (fun name child hchild hname => ?_)
            (fun name below hbelow => ?_)
          · obtain ⟨result, hmem, hresult⟩ :=
              exists_mem_ofEntries (level + 1) documentation presets hchild
            have hmem := List.mem_append_left (missing (level + 1) documentation entries) hmem
            obtain ⟨below, rfl⟩ := hplaced.exists_ok name result hmem hname
            exact ⟨below, hresult below rfl,
              (hplaced.mem_children name below).mpr (.inr ⟨hmem, hname⟩)⟩
          · rcases List.mem_append.mp (hplaced.mem_results hbelow) with hmem | hmem
            · exact .inr (laidOver_of_mem_ofEntries hmem)
            · exact .inl (onlyDocumented_of_mem hmem)
  | array items mark =>
      rw [ofTree] at h
      split at h
      · next hempty =>
        rw [List.isEmpty_iff] at hempty
        split at h
        · next hkeys => exact (placed_of_ofChildren h).overlaid hkeys ⟨rfl, hempty⟩ rfl rfl
        · cases h
          exact .bare ⟨rfl, hempty⟩ (.inr rfl) rfl fun _ _ hmem => (List.not_mem_nil hmem).elim
      · split at h
        · exact nomatch h
        · dsimp only at h
          cases hbuilt : ofItems (level + 1) 0
              (documentation.bind (·.child? ReservedName.array.text))
              ((presets.map Tree.items).getD []) items with
          | error fault =>
              rw [hbuilt] at h
              exact nomatch h
          | ok children =>
              rw [hbuilt] at h
              cases h
              obtain ⟨hnames, hlaid⟩ := ofItems_eq_ok hbuilt
              refine .array rfl ?_ hlaid
              rwa [← List.range_eq_range'] at hnames

/-! ## The whole overlay -/

section Items

variable {items : List Tree} {children : List (String × Documented)}
  (hnames : children.map (·.1) = (List.range items.length).map toString)

include hnames

theorem name_of_index {index : Nat} (hindex : index < children.length) :
    children[index].1 = toString index := by
  have hlength : children.length = items.length := by
    simpa using congrArg List.length hnames
  have hitem : index < items.length := hlength ▸ hindex
  have hname : (children.map (·.1))[index]? = some (toString index) := by
    rw [hnames, List.getElem?_map, List.getElem?_range hitem]
    rfl
  rwa [List.getElem?_map, List.getElem?_eq_getElem hindex, Option.map_some,
    Option.some.injEq] at hname

variable (hlaid : List.Forall₂ (fun item child => LaidOver item child.2) items children)

include hlaid

theorem exists_child_of_item {index : Nat} {item : Tree} (hitem : items[index]? = some item) :
    ∃ below, LaidOver item below ∧ (toString index, below) ∈ children := by
  obtain ⟨hlength, hall⟩ := List.forall₂_iff_get.mp hlaid
  obtain ⟨hindex, rfl⟩ := List.getElem?_eq_some_iff.mp hitem
  have hchild : index < children.length := hlength ▸ hindex
  refine ⟨children[index].2, hall index hindex hchild, ?_⟩
  rw [← name_of_index hnames hchild]
  exact List.getElem_mem hchild

theorem exists_item_of_child {name : String} {below : Documented}
    (hchild : (name, below) ∈ children) :
    ∃ (index : Nat) (item : Tree), items[index]? = some item ∧ name = toString index ∧
      LaidOver item below := by
  obtain ⟨hlength, hall⟩ := List.forall₂_iff_get.mp hlaid
  obtain ⟨index, hindex, hget⟩ := List.mem_iff_getElem.mp hchild
  have hitem : index < items.length := hlength ▸ hindex
  have hname := name_of_index hnames hindex
  have hbelow : LaidOver items[index] children[index].2 := hall index hitem hindex
  rw [hget] at hname hbelow
  exact ⟨index, items[index], List.getElem?_eq_getElem hitem, hname, hbelow⟩

end Items

/-- What is laid over a node of a tree is found at its place. -/
theorem LaidOver.exists_at {tree node : Tree} {documented : Documented} {path : List String}
    (h : LaidOver tree documented) (hnode : tree.At path node)
    (hpath : ∀ name ∈ path, ReservedName.ofText? name = none) :
    ∃ below, At path documented below ∧ LaidOver node below := by
  induction hnode generalizing documented with
  | here tree => exact ⟨documented, .here documented, h⟩
  | @key name child node entries mark path hchild hnode ih =>
      have hrest : ∀ name ∈ path, ReservedName.ofText? name = none :=
        fun other hother => hpath other (List.mem_cons_of_mem _ hother)
      cases overlaid_of_laidOver h with
      | bare hbare =>
          rw [show entries = [] from hbare.1] at hchild
          exact (List.not_mem_nil hchild).elim
      | map _ _ hentries _ =>
          obtain ⟨below, hbelow, hmem⟩ := hentries name child hchild (hpath name List.mem_cons_self)
          obtain ⟨found, hfound, hlaid⟩ := ih hbelow hrest
          exact ⟨found, .child hmem hfound, hlaid⟩
  | @item index item node items mark path hitem hnode ih =>
      have hrest : ∀ name ∈ path, ReservedName.ofText? name = none :=
        fun other hother => hpath other (List.mem_cons_of_mem _ hother)
      cases overlaid_of_laidOver h with
      | bare hbare =>
          rw [show items = [] from hbare.2] at hitem
          exact nomatch hitem
      | array _ hnames hlaid =>
          obtain ⟨below, hbelow, hmem⟩ := exists_child_of_item hnames hlaid hitem
          obtain ⟨found, hfound, hlaid⟩ := ih hbelow hrest
          exact ⟨found, .child hmem hfound, hlaid⟩

/-- A documented node comes from a node of the tree at the same place, or shows nothing of it. -/
theorem LaidOver.of_at {tree : Tree} {documented node : Documented} {path : List String}
    (h : LaidOver tree documented) (hnode : At path documented node) :
    node.note.scalar = none ∧ node.note.isArray = false ∨
      ∃ found, tree.At path found ∧ LaidOver found node := by
  induction hnode generalizing tree with
  | here documented => exact .inr ⟨tree, .here tree, h⟩
  | child hchild hnode ih =>
      cases overlaid_of_laidOver h with
      | bare _ _ _ hchildren => exact .inl ((hchildren _ _ hchild).note hnode)
      | map _ _ _ hchildren =>
          rcases hchildren _ _ hchild with honly | ⟨found, hfound, hlaid⟩
          · exact .inl (honly.note hnode)
          · rcases ih hlaid with hnone | ⟨deeper, hdeeper, hlaid⟩
            · exact .inl hnone
            · exact .inr ⟨deeper, .key hfound hdeeper, hlaid⟩
      | array _ hnames hlaid =>
          obtain ⟨index, item, hitem, rfl, hlaid⟩ := exists_item_of_child hnames hlaid hchild
          rcases ih hlaid with hnone | ⟨deeper, hdeeper, hlaid⟩
          · exact .inl hnone
          · exact .inr ⟨deeper, .item hitem hdeeper, hlaid⟩

/-! ## Values and their order -/

/-- Items are shown in their order, as long as doubles tell their numbers apart. -/
theorem inOrder_numbered {children : Entries Documented} {count : Nat}
    (hnames : children.map (·.1) = (List.range count).map toString)
    (hcount : count ≤ Binary64.mantissaBound) : inOrder children = children := by
  refine List.mergeSort_of_pairwise ?_
  have hsorted : (children.map (·.1)).Pairwise fun a b => Order.numericFirst a b = .lt := by
    rw [hnames, List.pairwise_map]
    refine List.Pairwise.imp_of_mem (fun {m n} _ hn hlt => ?_) List.pairwise_lt_range
    have hbound := Nat.lt_of_lt_of_le (List.mem_range.mp hn) hcount
    exact Order.numericFirst_toString (Nat.lt_trans hlt hbound) hbound hlt
  refine (List.pairwise_map.mp hsorted).imp fun hlt => ?_
  rw [hlt]
  rfl

/-- Documentation and values laid over one another: each scalar shows at its place, unless
documentation describes keys there or a name on the way is reserved. No place shows a scalar that
the tree does not have there. The items of an array stand in their order. -/
theorem scalar_of_build {documentation : Option Documentation} {tree : Tree}
    {presets : Option Tree} {documented : Documented}
    (h : build documentation (some tree) presets = .ok documented) :
    (∀ path node, tree.At path node → (∀ name ∈ path, ReservedName.ofText? name = none) →
      ∃ below, At path documented below ∧
        (describesKeys below.note.documentation = false →
          below.note.scalar = proper? node.scalar?)) ∧
    (∀ path below scalar, At path documented below → below.note.scalar = some scalar →
      ∃ node, tree.At path node ∧ proper? node.scalar? = some scalar) ∧
    ∀ path below, At path documented below → below.note.isArray = true →
      below.children.length ≤ Binary64.mantissaBound →
        (inOrder below.children).map (·.1) =
          (List.range below.children.length).map toString := by
  have hlaid : LaidOver tree documented := ⟨-1, none, documentation, presets, h⟩
  refine ⟨fun path node hnode hpath => ?_, fun path below scalar hbelow hscalar => ?_,
    fun path below hbelow harray hcount => ?_⟩
  · obtain ⟨below, hbelow, hlaid⟩ := hlaid.exists_at hnode hpath
    refine ⟨below, hbelow, fun hkeys => ?_⟩
    cases overlaid_of_laidOver hlaid with
    | bare _ hscalar =>
        rcases hscalar with ⟨_, hdescribed⟩ | hscalar
        · exact nomatch hdescribed.symm.trans hkeys
        · exact hscalar
    | map hscalar => exact hscalar
    | array hscalar => exact hscalar
  · rcases hlaid.of_at hbelow with ⟨hnone, -⟩ | ⟨node, hnode, hlaid⟩
    · exact nomatch hscalar.symm.trans hnone
    · refine ⟨node, hnode, ?_⟩
      cases overlaid_of_laidOver hlaid with
      | bare _ hshown =>
          rcases hshown with ⟨hnone, -⟩ | hshown
          · exact nomatch hscalar.symm.trans hnone
          · exact hshown.symm.trans hscalar
      | map hnone => exact nomatch hscalar.symm.trans hnone
      | array hnone => exact nomatch hscalar.symm.trans hnone
  · rcases hlaid.of_at hbelow with ⟨-, hnone⟩ | ⟨node, -, hlaid⟩
    · exact nomatch harray.symm.trans hnone
    · cases overlaid_of_laidOver hlaid with
      | bare _ _ hnone => exact nomatch harray.symm.trans hnone
      | map _ hnone => exact nomatch harray.symm.trans hnone
      | array _ hnames hitems =>
          have hlength := hitems.length_eq
          rw [hlength] at hnames
          rw [inOrder_numbered hnames hcount, hnames]

/-- Without documentation, the second item of an array shows its number. -/
theorem scalar_of_build_item :
    let tree : Tree :=
      .map [("a", .array [.leaf (some (.int 1)) {}, .leaf (some (.int 2)) {}] {})] {}
    ∃ documented, build none (some tree) none = .ok documented ∧
      ∃ below, At ["a", "1"] documented below ∧ below.note.scalar = some (.int 2) := by
  intro tree
  let item (n : Int) : Documented := .node { scalar := some (.int n), level := 1 } []
  let items : Documented :=
    .node { name := some "a", level := 0, isArray := true } [("0", item 1), ("1", item 2)]
  have hbuild : build none (some tree) none = .ok (.node {} [("a", items)]) := by cbv
  have hnode : tree.At ["a", "1"] (.leaf (some (.int 2)) {}) :=
    .key List.mem_cons_self (@Tree.At.item 1 _ _ _ _ _ rfl (.here _))
  obtain ⟨below, hbelow, hscalar⟩ := (scalar_of_build hbuild).1 ["a", "1"] _ hnode (by decide)
  refine ⟨_, hbuild, below, hbelow, hscalar ?_⟩
  cases hbelow with
  | child hitems hbelow =>
      cases List.mem_singleton.mp hitems
      cases hbelow with
      | child hitem hbelow =>
          cases hbelow
          rcases List.mem_pair.mp hitem with heq | heq
          · exact absurd (Prod.mk.inj heq).1 (by decide)
          · cases heq
            rfl

/-- A scalar is lost where documentation describes a structure, and with a key that is reserved. -/
theorem scalar_of_build_lost :
    let described : Documentation :=
      .node { type := .root } [("a", .node { type := .struct } [("b", .node {} [])])]
    let tree (key : String) : Tree := .map [(key, .leaf (some (.int 5)) {})] {}
    (∃ documented, build (some described) (some (tree "a")) none = .ok documented ∧
      ∀ below, At ["a"] documented below → below.note.scalar = none) ∧
    ∃ documented, build none (some (tree "<key>")) none = .ok documented ∧
      documented.children = [] := by
  intro described tree
  refine ⟨⟨.node { documentation := some described } [("a",
    .node { documentation := described.child? "a", name := some "a", level := 0 } [("b",
      .node { documentation := some (.node {} []), name := some "b", level := 1 } [])])],
    by cbv, fun below hbelow => ?_⟩, .node {} [], by cbv, rfl⟩
  cases hbelow with
  | child hchild hbelow =>
      cases hbelow
      cases List.mem_singleton.mp hchild
      rfl

end Documented

end LayeredConfig
