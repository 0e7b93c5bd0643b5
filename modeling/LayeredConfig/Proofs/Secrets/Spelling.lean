import LayeredConfig.Codec.Formats
import LayeredConfig.Proofs.Outcomes
import LayeredConfig.Proofs.Secrets.Annotation
import LayeredConfig.Proofs.Secrets.Marking
import LayeredConfig.Proofs.Tree.Steps
import LayeredConfig.Proofs.Yaml.Document

/-! # Names that are spelled more than once

A key and the same key with its annotation spell one name. A decoder sets the child of a name again
whenever a key spells it, so that the last such key alone decides what the child is and whether it
is secret; an annotation on an earlier key is lost. A merge of two records is different: it keeps
the mark of either. -/

namespace LayeredConfig

variable {α : Type}

/-! ## What a decoder sees -/

/-- A mapping with its keys as they are spelled, a sequence, or what has no parts to decode. Only a
tree that stands in a value as it is may be secret by itself. -/
inductive View (α : Type)
  | mapping (entries : List (String × α))
  | sequence (items : List α)
  | leaf (secret : Bool)

def View.isSecret : View α → Bool
  | leaf secret => secret
  | _ => false

def Value.view : Value → View Value
  | dict entries => .mapping (entries.map fun entry => (entry.1.toText, entry.2))
  | list items | tuple items => .sequence items
  | .tree found => .leaf found.isSecret
  | _ => .leaf false

namespace Yaml

/-- Keys that are no scalars spell nothing; there is no tree of a node with such a key. -/
def Node.view : Node → View Node
  | mapping _ entries _ =>
    .mapping (entries.filterMap fun entry => entry.1.keyText?.map fun key => (key, entry.2))
  | sequence _ items _ => .sequence items
  | _ => .leaf false

/-- The node that a document is decoded from, all merges below it carried out. -/
def document? (bytes : List UInt8) : Option Node := do
  let text ← Text.ofBytes? bytes
  if Text.isAllBlank text.toList then none
  else (← (node? text).toOption).map Node.merged

end Yaml

/-! ## Spellings -/

/-- The last entry whose key spells a name, annotated or not. -/
def lastSpelled? (name : String) (entries : List (String × α)) : Option (String × α) :=
  (entries.filter fun entry => (splitSecret entry.1).1 = name).getLast?

/-- The mark that is left by the last key that spells a name. -/
def lastMark? (view : α → View α) (name : String) (entries : List (String × α)) : Option Bool :=
  (lastSpelled? name entries).map fun entry => (splitSecret entry.1).2 || (view entry.2).isSecret

theorem lastSpelled?_append (name : String) (xs ys : List (String × α)) :
    lastSpelled? name (xs ++ ys) = (lastSpelled? name ys).or (lastSpelled? name xs) := by
  rw [lastSpelled?, List.filter_append, List.getLast?_append]
  rfl

theorem lastSpelled?_cons (name key : String) (raw : α) (entries : List (String × α)) :
    lastSpelled? name ((key, raw) :: entries) =
      (lastSpelled? name entries).or
        (if (splitSecret key).1 = name then some (key, raw) else none) := by
  rw [← List.singleton_append, lastSpelled?_append]
  congr 1
  by_cases h : (splitSecret key).1 = name <;> simp [lastSpelled?, h]

theorem lastMark?_append (view : α → View α) (name : String) (xs ys : List (String × α)) :
    lastMark? view name (xs ++ ys) = (lastMark? view name ys).or (lastMark? view name xs) := by
  rw [lastMark?, lastSpelled?_append, Option.map_or]
  rfl

/-- An annotated key marks its name, unless the name is spelled again behind it. -/
theorem lastMark?_annotated (view : α → View α) (name : String) (before : List (String × α))
    (raw : α) {after : List (String × α)} (h : ∀ entry ∈ after, (splitSecret entry.1).1 ≠ name) :
    lastMark? view name (before ++ (name ++ secretEnding, raw) :: after) = some true := by
  have hafter : lastSpelled? name after = none := by
    rw [lastSpelled?, List.getLast?_eq_none_iff, List.filter_eq_nil_iff]
    simpa using h
  rw [lastMark?, lastSpelled?_append, lastSpelled?_cons, hafter,
    splitSecret_append_secretEnding, if_pos rfl]
  simp [splitSecret_append_secretEnding]

/-! ## Paths through documents -/

/-- Of the entries that spell a name the last one counts. -/
def View.part? : Step → View α → Option α
  | .name name, mapping entries => (lastSpelled? name entries).map Prod.snd
  | .item index, sequence items => items[index]?
  | _, _ => none

/-- What a path leads to in a document. -/
def View.below? (view : α → View α) : List Step → α → Option α :=
  LayeredConfig.below? fun step whole => (view whole).part? step

/-! ## Marked children -/

section markSecret

variable (secret : Bool) (tree : Tree)

theorem exists_markSecret_map (entries : List (String × Tree)) (mark : Mark) :
    ∃ mark', markSecret secret (.map entries mark) = .map entries mark' := by
  cases secret <;> exact ⟨_, rfl⟩

@[simp] theorem part?_markSecret (step : Step) :
    (markSecret secret tree).part? step = tree.part? step := by
  cases secret <;> cases tree <;> cases step <;> rfl

end markSecret

/-! ## Children that are set one after another -/

/-- Each entry in turn sets the child of the name that its key spells. -/
inductive Gathers (Decodes : α → Tree → Prop) :
    Entries Tree → List (String × α) → Entries Tree → Prop
  | nil (built : Entries Tree) : Gathers Decodes built [] built
  | cons {built children : Entries Tree} {key : String} {raw : α} {child : Tree}
      {entries : List (String × α)} (hchild : Decodes raw child)
      (hrest : Gathers Decodes
        (built.set (splitSecret key).1 (markSecret (splitSecret key).2 child)) entries children) :
      Gathers Decodes built ((key, raw) :: entries) children

/-- The last key that spells a name decides; a name that no key spells is left as it was. -/
theorem Gathers.lookup {Decodes : α → Tree → Prop} {built children : Entries Tree}
    {entries : List (String × α)} (h : Gathers Decodes built entries children) (name : String) :
    match lastSpelled? name entries with
    | none => children.lookup name = built.lookup name
    | some (key, raw) => ∃ child, Decodes raw child ∧
        children.lookup name = some (markSecret (splitSecret key).2 child) := by
  induction h with
  | nil built => rfl
  | @cons built children key raw child entries hchild _ ih =>
      rw [lastSpelled?_cons]
      cases hlast : lastSpelled? name entries with
      | some last =>
          rw [hlast] at ih
          exact ih
      | none =>
          rw [hlast] at ih
          rw [ih, Entries.lookup_set]
          by_cases hname : name = (splitSecret key).1
          · rw [if_pos hname, if_pos hname.symm]
            exact ⟨child, hchild, rfl⟩
          · rw [if_neg hname, if_neg (Ne.symm hname)]
            rfl

/-! ## Decoders -/

/-- A decoder makes maps of mappings, arrays of sequences, and marks nothing but by annotations. -/
structure Descends (view : α → View α) (Decodes : α → Tree → Prop) : Prop where
  mapping : ∀ {raw tree entries}, Decodes raw tree → view raw = .mapping entries →
    ∃ children mark, tree = .map children mark ∧ mark.secret = false ∧
      Gathers Decodes [] entries children
  sequence : ∀ {raw tree items}, Decodes raw tree → view raw = .sequence items →
    ∃ trees mark, tree = .array trees mark ∧ mark.secret = false ∧
      List.Forall₂ Decodes items trees
  leaf : ∀ {raw tree secret}, Decodes raw tree → view raw = .leaf secret → tree.isSecret = secret

/-- Wherever a path leads to a mapping in a document, it leads to a map in the tree. That map has a
child for each name that the mapping spells, with the mark that the last such key leaves. -/
def MarksByLast (view : α → View α) (raw : α) (tree : Tree) : Prop :=
  ∀ path part entries, View.below? view path raw = some part → view part = .mapping entries →
    ∃ children mark, below? Tree.part? path tree = some (.map children mark) ∧
      ∀ name, (children.lookup name).map Tree.isSecret = lastMark? view name entries

namespace Descends

variable {view : α → View α} {Decodes : α → Tree → Prop} {raw part : α} {tree : Tree}

theorem isSecret_eq (h : Descends view Decodes) (hraw : Decodes raw tree) :
    tree.isSecret = (view raw).isSecret := by
  cases hview : view raw with
  | mapping entries =>
      obtain ⟨children, mark, rfl, hmark, -⟩ := h.mapping hraw hview
      exact hmark
  | sequence items =>
      obtain ⟨trees, mark, rfl, hmark, -⟩ := h.sequence hraw hview
      exact hmark
  | leaf secret => exact h.leaf hraw hview

theorem lookup_eq (h : Descends view Decodes) {entries : List (String × α)}
    {children : Entries Tree} (hgathers : Gathers Decodes [] entries children) (name : String) :
    (children.lookup name).map Tree.isSecret = lastMark? view name entries := by
  have hlookup := hgathers.lookup name
  rw [lastMark?]
  cases hlast : lastSpelled? name entries with
  | none =>
      rw [hlast] at hlookup
      rw [hlookup]
      rfl
  | some last =>
      rw [hlast] at hlookup
      obtain ⟨child, hchild, hfound⟩ := hlookup
      rw [hfound, Option.map_some, Option.map_some, isSecret_markSecret, h.isSecret_eq hchild]

/-- A step down in the document is a step down in the tree; on the way a mark may be added. -/
theorem exists_part? (h : Descends view Decodes) (hraw : Decodes raw tree) {step : Step}
    (hpart : (view raw).part? step = some part) :
    ∃ secret node, tree.part? step = some (markSecret secret node) ∧ Decodes part node := by
  cases hview : view raw with
  | mapping entries =>
      rw [hview] at hpart
      obtain ⟨children, mark, rfl, -, hgathers⟩ := h.mapping hraw hview
      cases step with
      | name name =>
          obtain ⟨⟨key, _⟩, hlast, rfl⟩ := Option.map_eq_some_iff.mp hpart
          have hlookup := hgathers.lookup name
          rw [hlast] at hlookup
          obtain ⟨child, hchild, hfound⟩ := hlookup
          exact ⟨_, child, hfound, hchild⟩
      | item index => cases hpart
  | sequence items =>
      rw [hview] at hpart
      obtain ⟨trees, mark, rfl, -, hitems⟩ := h.sequence hraw hview
      cases step with
      | name name => cases hpart
      | item index =>
          obtain ⟨hindex, rfl⟩ := List.getElem?_eq_some_iff.mp hpart
          have htree : index < trees.length := hitems.length_eq ▸ hindex
          exact ⟨false, trees[index], List.getElem?_eq_getElem htree,
            hitems.get hindex htree⟩
  | leaf secret =>
      rw [hview] at hpart
      cases step <;> cases hpart

theorem exists_below? (h : Descends view Decodes) (hraw : Decodes raw tree) {path : List Step}
    (hpart : View.below? view path raw = some part) :
    ∃ secret node, below? Tree.part? path tree = some (markSecret secret node) ∧
      Decodes part node := by
  suffices ∀ secret, ∃ secret' node,
      below? Tree.part? path (markSecret secret tree) = some (markSecret secret' node) ∧
        Decodes part node from this false
  induction path generalizing raw tree with
  | nil =>
      cases hpart
      exact fun secret => ⟨secret, tree, rfl, hraw⟩
  | cons step rest ih =>
      intro secret
      obtain ⟨next, hnext, hpart⟩ := Option.bind_eq_some_iff.mp hpart
      obtain ⟨marked, node, hnode, hdecodes⟩ := h.exists_part? hraw hnext
      rw [below?, part?_markSecret, hnode]
      exact ih hdecodes hpart marked

theorem marksByLast (h : Descends view Decodes) (hraw : Decodes raw tree) :
    MarksByLast view raw tree := by
  intro path part entries hpart hview
  obtain ⟨secret, node, hnode, hdecodes⟩ := h.exists_below? hraw hpart
  obtain ⟨children, mark, rfl, -, hgathers⟩ := h.mapping hdecodes hview
  obtain ⟨mark', hmark⟩ := exists_markSecret_map secret children mark
  exact ⟨children, mark', hmark ▸ hnode, h.lookup_eq hgathers⟩

end Descends

/-! ## Both decoders -/

namespace Tree

variable {origins : List Origin}

theorem gathers_ofEntries {built children : Entries Tree} {entries : List (Value × Value)}
    (h : ofEntries origins built entries = .ok children) :
    Gathers (fun raw tree => ofValue origins raw = .ok tree) built
      (entries.map fun entry => (entry.1.toText, entry.2)) children := by
  induction entries generalizing built with
  | nil =>
      rw [ofEntries, Except.ok.injEq] at h
      exact h ▸ .nil built
  | cons entry rest ih =>
      obtain ⟨key, raw⟩ := entry
      rw [ofEntries] at h
      obtain ⟨child, hchild, h⟩ := exists_of_bind_eq_ok h
      exact .cons hchild (ih h)

theorem ofItems_eq (items : List Value) : ofItems origins items = items.mapM (ofValue origins) := by
  induction items with
  | nil => rfl
  | cons item rest ih =>
      rw [ofItems, ih, List.mapM_cons]
      rfl

theorem descends_ofValue (origins : List Origin) :
    Descends Value.view fun raw tree => ofValue origins raw = .ok tree where
  mapping {raw tree entries} h hview := by
    cases raw with
    | dict pairs =>
        cases hview
        rw [ofValue] at h
        obtain ⟨children, hchildren, rfl⟩ := exists_of_map_eq_ok h
        exact ⟨children, _, rfl, rfl, gathers_ofEntries hchildren⟩
    | _ => cases hview
  sequence {raw tree items} h hview := by
    cases raw with
    | list _ | tuple _ =>
        cases hview
        rw [ofValue, ofItems_eq] at h
        obtain ⟨trees, htrees, rfl⟩ := exists_of_map_eq_ok h
        exact ⟨trees, _, rfl, rfl, forall₂_of_mapM_eq_ok htrees⟩
    | _ => cases hview
  leaf {raw tree secret} h hview := by
    cases raw with
    | tree found =>
        cases hview
        cases h
        rfl
    | dict _ | list _ | tuple _ => cases hview
    | _ =>
        cases hview
        simp only [ofValue] at h
        obtain ⟨scalar, -, rfl⟩ := exists_of_map_eq_ok h
        rfl

end Tree

namespace Yaml

variable {name : String} {origin : Origin}

theorem Node.gathers_entriesToTrees {built children : Entries Tree} {entries : List (Node × Node)}
    (h : entriesToTrees name origin built entries = .ok children) :
    Gathers (fun node tree => node.toTree name = .ok tree) built
      (entries.filterMap fun entry => entry.1.keyText?.map fun key => (key, entry.2))
      children := by
  induction entries generalizing built with
  | nil =>
      rw [entriesToTrees, Except.ok.injEq] at h
      exact h ▸ .nil built
  | cons entry rest ih =>
      obtain ⟨key, node⟩ := entry
      rw [entriesToTrees] at h
      cases hkey : key.keyText? with
      | none =>
          rw [hkey] at h
          cases h
      | some text =>
          rw [hkey] at h
          obtain ⟨child, hchild, h⟩ := exists_of_bind_eq_ok h
          rw [List.filterMap_cons, hkey]
          exact .cons hchild (ih h)

theorem Node.itemsToTrees_eq (items : List Node) :
    itemsToTrees name items = items.mapM (toTree name) := by
  induction items with
  | nil => rfl
  | cons item rest ih =>
      rw [itemsToTrees, ih, List.mapM_cons]
      rfl

theorem Node.descends_toTree (name : String) :
    Descends Node.view fun node tree => node.toTree name = .ok tree where
  mapping {node tree entries} h hview := by
    cases node with
    | mapping tag pairs start =>
        cases hview
        rw [toTree] at h
        obtain ⟨children, hchildren, rfl⟩ := exists_of_map_eq_ok h
        exact ⟨children, _, rfl, rfl, gathers_entriesToTrees hchildren⟩
    | _ => cases hview
  sequence {node tree items} h hview := by
    cases node with
    | sequence tag nodes start =>
        cases hview
        rw [toTree, itemsToTrees_eq] at h
        obtain ⟨trees, htrees, rfl⟩ := exists_of_map_eq_ok h
        exact ⟨trees, _, rfl, rfl, forall₂_of_mapM_eq_ok htrees⟩
    | _ => cases hview
  leaf {node tree secret} h hview := by
    cases node with
    | scalar tag text start =>
        cases hview
        rw [toTree, scalarTree] at h
        split at h <;> cases h
        rfl
    | broken => cases h
    | _ => cases hview

theorem exists_node?_of_document? {bytes : List UInt8} {node : Node}
    (h : document? bytes = some node) :
    ∃ text root, Text.ofBytes? bytes = some text ∧ Text.isAllBlank text.toList = false ∧
      node? text = .ok (some root) ∧ node = root.merged := by
  obtain ⟨text, htext, h⟩ := Option.bind_eq_some_iff.mp h
  cases hblank : Text.isAllBlank text.toList with
  | true =>
      rw [hblank] at h
      cases h
  | false =>
      rw [hblank] at h
      obtain ⟨root?, hroot, h⟩ := Option.bind_eq_some_iff.mp h
      obtain ⟨root, rfl, rfl⟩ := Option.map_eq_some_iff.mp h
      cases hresult : node? text with
      | error fault =>
          rw [hresult] at hroot
          cases hroot
      | ok found =>
          rw [hresult] at hroot
          cases hroot
          exact ⟨text, root, htext, hblank, hresult, rfl⟩

theorem exists_toTree_of_decode {info : DocumentInfo} {bytes : List UInt8} {node : Node}
    {tree : Tree} (hnode : document? bytes = some node) (h : decode info bytes = .ok tree) :
    ∃ found, node.toTree info.name = .ok found ∧ Decoder.requireMap info found = .ok tree := by
  obtain ⟨text, root, htext, hblank, hroot, rfl⟩ := exists_node?_of_document? hnode
  obtain ⟨_, htext', h⟩ := exists_of_bind_eq_ok h
  obtain ⟨found, hfound, hmap⟩ := exists_of_bind_eq_ok h
  rw [Decoder.textOf, htext] at htext'
  cases htext'
  refine ⟨found, ?_, hmap⟩
  rw [read, hblank, if_neg Bool.false_ne_true, hroot] at hfound
  cases htree : root.merged.toTree info.name with
  | error fault =>
      simp only [htree] at hfound
      cases hfound
  | ok tree =>
      simp only [htree] at hfound
      exact congrArg _ (Except.ok.inj hfound)

theorem eq_or_exists_leaf_of_requireMap {info : DocumentInfo} {found tree : Tree}
    (h : Decoder.requireMap info found = .ok tree) :
    tree = found ∨ ∃ value mark, found = .leaf value mark := by
  cases found with
  | leaf value mark => exact .inr ⟨value, mark, rfl⟩
  | map entries mark =>
      rw [Decoder.requireMap] at h
      split at h <;> exact .inl (Except.ok.inj h).symm
  | array items mark =>
      unfold Decoder.requireMap at h
      split at h
      · exact .inl (Except.ok.inj h).symm
      · cases h

theorem marksByLast_decode {info : DocumentInfo} {bytes : List UInt8} {node : Node} {tree : Tree}
    (hnode : document? bytes = some node) (h : decode info bytes = .ok tree) :
    MarksByLast Node.view node tree := by
  obtain ⟨found, hfound, hmap⟩ := exists_toTree_of_decode hnode h
  have hmarks := (Node.descends_toTree info.name).marksByLast hfound
  rcases eq_or_exists_leaf_of_requireMap hmap with rfl | ⟨value, mark, rfl⟩
  · exact hmarks
  · -- No path leads from a leaf to a map, so that there is no mapping in the document.
    intro path part entries hpart hview
    obtain ⟨children, mark', hbelow, -⟩ := hmarks path part entries hpart hview
    cases path with
    | nil => cases hbelow
    | cons step rest => cases step <;> cases hbelow

end Yaml

/-! ## One document and two records -/

/-- A tree of plain data or of a YAML document, with what its decoder sees. -/
inductive Decoded : {α : Type} → (α → View α) → α → Tree → Prop
  | plain {origins : List Origin} {raw : Value} {tree : Tree}
      (h : Tree.ofValue origins raw = .ok tree) : Decoded Value.view raw tree
  | yaml {info : DocumentInfo} {bytes : List UInt8} {node : Yaml.Node} {tree : Tree}
      (hnode : Yaml.document? bytes = some node) (h : Yaml.decode info bytes = .ok tree) :
      Decoded Yaml.Node.view node tree

theorem Decoded.marksByLast {view : α → View α} {raw : α} {tree : Tree}
    (h : Decoded view raw tree) : MarksByLast view raw tree := by
  cases h with
  | plain h => exact (Tree.descends_ofValue _).marksByLast h
  | yaml hnode h => exact Yaml.marksByLast_decode hnode h

/-- A tree that is decoded from a document with a mapping at a path, and the entries there. -/
def Says (view : α → View α) (path : List Step) (entries : List (String × α)) (tree : Tree) :
    Prop :=
  ∃ raw part, Decoded view raw tree ∧ View.below? view path raw = some part ∧
    view part = .mapping entries

section Says

variable {view : α → View α} {entries : List (String × α)} {tree : Tree}

theorem Says.exists_map {path : List Step} (h : Says view path entries tree) :
    ∃ children mark, below? Tree.part? path tree = some (.map children mark) ∧
      ∀ name, (children.lookup name).map Tree.isSecret = lastMark? view name entries := by
  obtain ⟨raw, part, hdecoded, hpart, hview⟩ := h
  exact hdecoded.marksByLast path part entries hpart hview

theorem Says.node? {path : List String} (h : Says view (path.map .name) entries tree)
    (name : String) :
    (tree.node? (path ++ [name])).map Tree.isSecret = lastMark? view name entries := by
  obtain ⟨children, mark, hbelow, hlookup⟩ := h.exists_map
  rw [Tree.below?_names] at hbelow
  rw [Tree.node?_append, hbelow, ← hlookup]
  exact congrArg (Option.map Tree.isSecret) (Option.bind_fun_some _)

end Says

/-- The last key that spells a name decides whether its child is secret, at every depth of plain
data and of a document. An annotated key marks its name unless the name is spelled again behind it.
So earlier entries lose their mark to later ones of the same mapping, where two merged records keep
the mark of either. -/
theorem isSecret_of_last_spelling {view : α → View α} {path : List Step}
    {entries : List (String × α)} {tree : Tree} (h : Says view path entries tree) (name : String) :
    ∃ children mark, below? Tree.part? path tree = some (.map children mark) ∧
      (children.lookup name).map Tree.isSecret = lastMark? view name entries ∧
      (∀ before raw after, entries = before ++ (name ++ secretEnding, raw) :: after →
        (∀ entry ∈ after, (splitSecret entry.1).1 ≠ name) →
        (children.lookup name).map Tree.isSecret = some true) ∧
      ∀ names xs ys delimiter first second merged, path = names.map .name →
        entries = xs ++ ys → Says view path xs first → Says view path ys second →
        first.DistinctKeys → second.DistinctKeys →
        Tree.mergeAll delimiter [first, second] = .ok merged →
        (∀ tree ∈ [first, second], tree.layer? (names ++ [name]) = tree.node? (names ++ [name])) →
        (children.lookup name).map Tree.isSecret =
            (lastMark? view name ys).or (lastMark? view name xs) ∧
          (merged.layer? (names ++ [name])).map Tree.isSecret =
            (lastMark? view name xs).merge (· || ·) (lastMark? view name ys) := by
  obtain ⟨children, mark, hbelow, hlookup⟩ := h.exists_map
  refine ⟨children, mark, hbelow, hlookup name, ?_, ?_⟩
  · rintro before raw after rfl hafter
    exact (hlookup name).trans (lastMark?_annotated view name before raw hafter)
  · rintro names xs ys delimiter first second merged rfl rfl hfirst hsecond hkeys hkeys' hmerge
      hlayers
    have hone : first.layer? (names ++ [name]) = first.node? (names ++ [name]) :=
      hlayers first List.mem_cons_self
    have htwo : second.layer? (names ++ [name]) = second.node? (names ++ [name]) :=
      hlayers second (List.mem_cons_of_mem _ List.mem_cons_self)
    refine ⟨(hlookup name).trans (lastMark?_append view name xs ys), ?_⟩
    rw [Tree.map_isSecret_mergeAll hkeys hkeys' hmerge, hone, htwo, hfirst.node?, hsecond.node?]

/-- A password whose annotated key comes first is secret in two records, but not in one. -/
theorem isSecret_of_last_spelling_password :
    let origin : Origin := ⟨"app.json", 0, 0⟩
    let annotated : Value × Value := (.text "password((secret))", .text "a")
    let plain : Value × Value := (.text "password", .text "b")
    let password (text : String) (mark : Mark) : Tree :=
      .map [("password", .leaf (some (.text text)) mark)] { origins := [origin] }
    let secret := password "a" { origins := [origin], secret := true }
    let last := password "b" { origins := [origin] }
    let both : Tree :=
      .map [("password", .leaf (some (.text "b")) { origins := [origin, origin], secret := true })]
        { origins := [origin, origin] }
    Tree.ofValue [origin] (.dict [annotated, plain]) = .ok last ∧
      Tree.ofValue [origin] (.dict [annotated]) = .ok secret ∧
      Tree.ofValue [origin] (.dict [plain]) = .ok last ∧
      Tree.mergeAll "." [secret, last] = .ok both ∧
      ∃ children mark, last = .map children mark ∧
        (children.lookup "password").map Tree.isSecret = some false ∧
        (both.layer? ["password"]).map Tree.isSecret = some true := by
  intro origin annotated plain password secret last both
  have hwhole : Tree.ofValue [origin] (.dict [annotated, plain]) = .ok last := rfl
  have hfirst : Tree.ofValue [origin] (.dict [annotated]) = .ok secret := rfl
  have hsecond : Tree.ofValue [origin] (.dict [plain]) = .ok last := rfl
  have hmerge : Tree.mergeAll "." [secret, last] = .ok both := rfl
  have hsays : Says Value.view [] [("password((secret))", .text "a"), ("password", .text "b")]
      last := ⟨_, _, .plain hwhole, rfl, rfl⟩
  obtain ⟨children, mark, hmap, -, -, hmerged⟩ := isSecret_of_last_spelling hsays "password"
  have hflags := hmerged [] [("password((secret))", .text "a")] [("password", .text "b")] "."
    secret last both rfl rfl ⟨_, _, .plain hfirst, rfl, rfl⟩ ⟨_, _, .plain hsecond, rfl, rfl⟩
    (by decide) (by decide) hmerge
    (by simp [secret, last, password, Tree.layer?, Tree.node?, Tree.entries, Tree.isEmpty])
  exact ⟨hwhole, hfirst, hsecond, hmerge, children, mark, Option.some.inj hmap, hflags⟩

/-- Both decoders lose the annotation of a key when the plain key follows. -/
theorem not_isSecret_of_first_spelling :
    Tree.ofValue [] (.dict [(.text "n((secret))", .text "a"), (.text "n", .text "b")]) =
        .ok (.map [("n", .leaf (some (.text "b")) {})] {}) ∧
      ∃ tree, Yaml.decode ⟨"doc", "."⟩ (Text.toBytes "n((secret)): a\nn: b\n") = .ok tree ∧
        tree.withoutOrigins = .map [("n", .leaf (some (.text "b")) {})] {} := by
  refine ⟨rfl, ?_⟩
  have htext (text : String) (h : text ∈ ["a", "b"]) : Yaml.Node.Composes
      (Yaml.tokensOf (fun _ => true) (.leaf (some (.text text)) {}))
      (.leaf (some (.text text)) {}) := by
    have hleaf : (Tree.leaf (some (.text text)) {}).Nested (fun _ => False) (· ∈ ["a", "b"]) :=
      .leaf h
    exact Yaml.Node.composes hleaf (fun _ hkey => hkey.elim) (by decide +kernel)
  have hentries : ∀ entry ∈ [("n((secret))", Tree.leaf (some (.text "a")) {}),
      ("n", .leaf (some (.text "b")) {})],
      Yaml.Node.Composes (Yaml.tokensOf (fun _ => true) entry.2) entry.2 := by
    simpa using ⟨htext "a" (by simp), htext "b" (by simp)⟩
  have hcomposes := Yaml.Node.Composes.gathered hentries (by decide +kernel)
  have hrun : (Yaml.Scanner.run { rest := "n((secret)): a\nn: b\n".toList }).toOption.any
      (fun last => last.blocks.tokens = .blockMappingStart ::
        (Yaml.keyedTokens (Yaml.tokensOf fun _ => true)
          [("n((secret))", .leaf (some (.text "a")) {}), ("n", .leaf (some (.text "b")) {})] ++
          [.blockEnd]) ++ [.streamEnd]) = true := by
    decide +kernel
  obtain ⟨last, hlast, htokens⟩ := exists_ok_of_any hrun
  exact Yaml.exists_decode_of_run hcomposes (.inl rfl) hlast (of_decide_eq_true htokens)
    (by simp [Yaml.isReadable]) (by decide +kernel) _

end LayeredConfig
