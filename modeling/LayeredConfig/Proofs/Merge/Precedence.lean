import LayeredConfig.Proofs.Merge.Equations
import Mathlib.Data.List.Induction

/-! # What the layers of one place add up to

A merge acts at every path by itself: where only one side lays a node, that node is taken over, and
where both do, one is laid over the other. So the node that merged trees have at a path depends on
the nodes laid there alone. -/

namespace LayeredConfig.Tree

variable {delimiter : String} {path : List String}

/-! ## One merge, path by path -/

/-- The layer of a merge, by the layers of both sides. -/
inductive LayersMeet (delimiter : String) (path : List String) :
    Option Tree → Option Tree → Option Tree → Prop where
  | base (layer? : Option Tree) : LayersMeet delimiter path layer? none layer?
  | incoming (layer? : Option Tree) : LayersMeet delimiter path none layer? layer?
  | both {base incoming merged : Tree} (h : Overlay delimiter path base incoming merged) :
      LayersMeet delimiter path (some base) (some incoming) (some merged)

/-- The layers of a merge at a path are decided by the layers of both sides at that path. -/
theorem layer?_mergeAt {base incoming merged : Tree} (hkeys : incoming.DistinctKeys)
    (h : mergeAt delimiter path base incoming = .ok merged) (below : List String) :
    LayersMeet delimiter (path ++ below) (base.layer? below) (incoming.layer? below)
      (merged.layer? below) := by
  induction below generalizing path base incoming merged with
  | nil =>
      rcases mergeAt_cases h with ⟨hincoming, rfl⟩ | ⟨_, hbase, rfl⟩ | ⟨hincoming, hbase, hover⟩
      · rw [layer?_of_isEmpty hincoming]
        exact .base _
      · rw [layer?_of_isEmpty hbase]
        exact .incoming _
      · rw [List.append_nil, layer?_nil hbase, layer?_nil hincoming,
          layer?_nil (hover.isEmpty_eq_false hkeys hincoming)]
        exact .both hover
  | cons key rest ih =>
      rcases mergeAt_cases h with ⟨hincoming, rfl⟩ | ⟨_, hbase, rfl⟩ | ⟨_, _, hover⟩
      · rw [layer?_of_isEmpty hincoming]
        exact .base _
      · rw [layer?_of_isEmpty hbase]
        exact .incoming _
      · rw [layer?_cons, layer?_cons, layer?_cons]
        cases hover with
        | leaf => exact .base _
        | array => exact .base _
        | @map under entries _ _ _ hentries =>
            -- Below a map the children of the key decide, and they merge as the entries do.
            have hlookup := (mergeEntries_spec hkeys.keys_nodup hentries).2 key
            simp only [Tree.entries]
            cases hunder : under.lookup key with
            | none =>
                rw [hunder, mergeChild_none_left, Except.ok.injEq] at hlookup
                rw [← hlookup]
                exact .incoming _
            | some existing =>
                cases hchild : entries.lookup key with
                | none =>
                    rw [hunder, hchild, mergeChild_none_right, Except.ok.injEq] at hlookup
                    rw [← hlookup]
                    exact .base _
                | some child =>
                    rw [hunder, hchild, mergeChild_some_eq_ok_iff] at hlookup
                    obtain ⟨value, hvalue, hmerged⟩ := hlookup
                    rw [hmerged, List.append_cons]
                    exact ih (hkeys.child (Entries.mem_of_lookup hchild)) hvalue

/-! ## Layers on top of one another -/

/-- What nodes of one place add up to, the first at the bottom and the last on top. -/
structure Stacked (layers : List Tree) (node : Tree) : Prop where
  ne_nil : layers ≠ []
  shape : ∀ layer ∈ layers, layer.shape = node.shape
  scalar : node.scalar? = layers.getLast?.bind Tree.scalar?
  items : node.items = layers.getLast?.elim [] Tree.items
  keys : ∀ key, key ∈ Entries.keys node.entries ↔
    ∃ layer ∈ layers, key ∈ Entries.keys layer.entries
  origins : node.origins =
    if node.shape = .array then layers.getLast?.elim [] Tree.origins
    else layers.flatMap Tree.origins
  secret : node.isSecret = layers.any Tree.isSecret

theorem Stacked.single (node : Tree) : Stacked [node] node := by
  refine ⟨by simp, by simp, rfl, rfl, by simp, ?_, by simp⟩
  cases node <;> simp [Tree.shape]

/-- Laying one more node over a stack puts it on top. -/
theorem Stacked.push {layers : List Tree} {base incoming merged : Tree}
    (hstack : Stacked layers base) (hkeys : incoming.DistinctKeys)
    (h : Overlay delimiter path base incoming merged) :
    Stacked (layers ++ [incoming]) merged := by
  obtain ⟨hbase, hmerged⟩ := h.shape_eq
  refine ⟨by simp, ?_, ?_, ?_, ?_, ?_, ?_⟩
  · intro layer hlayer
    rcases List.mem_append.mp hlayer with hlayer | hlayer
    · rw [hstack.shape layer hlayer, hbase, hmerged]
    · rw [List.mem_singleton.mp hlayer, hmerged]
  · rw [h.scalar?_eq]
    simp
  · rw [h.items_eq]
    simp
  · intro key
    rw [h.mem_keys hkeys key, hstack.keys key]
    simp only [List.mem_append, List.mem_singleton, or_and_right, exists_or, exists_eq_left]
  · rw [h.origins_eq, hstack.origins, hbase, hmerged]
    split <;> simp
  · rw [h.isSecret_eq, hstack.secret]
    simp

/-! ## All merges -/

/-- One more tree is merged into what the trees before it merge to. -/
theorem mergeAll_append_singleton (trees : List Tree) (tree : Tree) :
    mergeAll delimiter (trees ++ [tree]) =
      mergeAll delimiter trees >>= fun below => mergeAt delimiter [] below tree := by
  simp only [mergeAll, List.foldlM_append, List.foldlM_cons, List.foldlM_nil, bind_pure]
  rfl

theorem mergeAll_append_singleton_eq_ok_iff {trees : List Tree} {tree merged : Tree} :
    mergeAll delimiter (trees ++ [tree]) = .ok merged ↔
      ∃ below, mergeAll delimiter trees = .ok below ∧
        mergeAt delimiter [] below tree = .ok merged := by
  rw [mergeAll_append_singleton]
  cases mergeAll delimiter trees with
  | error fault => simp [bind, Except.bind]
  | ok below => simp [bind, Except.bind]

theorem layers_append_singleton (path : List String) (trees : List Tree) (tree : Tree) :
    layers path (trees ++ [tree]) = layers path trees ++ (tree.layer? path).toList := by
  simp only [layers, List.filterMap_append, List.filterMap_cons, List.filterMap_nil]
  cases tree.layer? path <;> rfl

/-- At every path merged trees have nothing to show where no tree lays a node, and otherwise what
the nodes laid there add up to. -/
theorem layer?_mergeAll {trees : List Tree} {merged : Tree}
    (hkeys : ∀ tree ∈ trees, tree.DistinctKeys) (h : mergeAll delimiter trees = .ok merged)
    (path : List String) :
    (layers path trees = [] ∧ merged.layer? path = none) ∨
      ∃ node, merged.layer? path = some node ∧ Stacked (layers path trees) node := by
  induction trees using List.reverseRecOn generalizing merged with
  | nil =>
      cases h
      exact .inl ⟨rfl, layer?_of_isEmpty rfl path⟩
  | append_singleton trees tree ih =>
      obtain ⟨below, hbelow, hmerge⟩ := mergeAll_append_singleton_eq_ok_iff.mp h
      have htree : tree.DistinctKeys := hkeys tree (by simp)
      have hmeet := layer?_mergeAt htree hmerge path
      generalize merged.layer? path = layer at hmeet ⊢
      rw [layers_append_singleton]
      rcases ih (fun tree htree => hkeys tree (by simp [htree])) hbelow with
        ⟨hnone, hlayer⟩ | ⟨node, hlayer, hstack⟩
      · rw [hlayer] at hmeet
        rw [hnone]
        cases hnode : tree.layer? path with
        | none =>
            rw [hnode] at hmeet
            cases hmeet <;> exact .inl ⟨rfl, rfl⟩
        | some incoming =>
            rw [hnode] at hmeet
            cases hmeet
            exact .inr ⟨incoming, rfl, .single incoming⟩
      · rw [hlayer] at hmeet
        cases hnode : tree.layer? path with
        | none =>
            rw [hnode] at hmeet
            cases hmeet
            exact .inr ⟨node, rfl, by simpa using hstack⟩
        | some incoming =>
            rw [hnode] at hmeet
            cases hmeet with
            | both hover =>
                have hincoming := htree.node? (layer?_eq_some_iff.mp hnode).1
                exact .inr ⟨_, rfl, hstack.push hincoming hover⟩

/-- Merge precedence. Where one of the trees has a node that is not empty, the merged tree has a
node, too, and it is what the nodes of that place add up to in the order of the trees. -/
theorem mergeAll_precedence {trees : List Tree} {merged : Tree}
    (hkeys : ∀ tree ∈ trees, tree.DistinctKeys) (h : mergeAll delimiter trees = .ok merged)
    {path : List String} {tree found : Tree} (htree : tree ∈ trees)
    (hfound : tree.node? path = some found) (hne : found.isEmpty = false) :
    ∃ node, merged.node? path = some node ∧ merged.fetch delimiter path = .ok node ∧
      Stacked (layers path trees) node := by
  have hlayer : tree.layer? path = some found := layer?_eq_some_iff.mpr ⟨hfound, hne⟩
  have hmem : found ∈ layers path trees := List.mem_filterMap.mpr ⟨tree, htree, hlayer⟩
  rcases layer?_mergeAll hkeys h path with ⟨hnone, _⟩ | ⟨node, hnode, hstack⟩
  · rw [hnone] at hmem
    cases hmem
  · have hpath := (layer?_eq_some_iff.mp hnode).1
    exact ⟨node, hpath, fetch_of_node? delimiter hpath, hstack⟩

/-- A secret port of the defaults that a file sets to another value remains secret. -/
theorem mergeAll_precedence_port :
    let port (value : Int) (mark : Mark) : Tree :=
      map [("service", map [("port", leaf (some (.int value)) mark)] {})] {}
    let defaults := port 80 { origins := [⟨"defaults", 0, 0⟩], secret := true }
    let file := port 8080 { origins := [⟨"app.yaml", 2, 3⟩] }
    let merged := port 8080 { origins := [⟨"defaults", 0, 0⟩, ⟨"app.yaml", 2, 3⟩], secret := true }
    (∀ tree ∈ [defaults, file, empty], tree.DistinctKeys) ∧
      mergeAll "." [defaults, file, empty] = .ok merged ∧
      ∃ node, merged.node? ["service", "port"] = some node ∧
        merged.fetch "." ["service", "port"] = .ok node ∧
        Stacked (layers ["service", "port"] [defaults, file, empty]) node := by
  intro port defaults file merged
  have hkeys : ∀ tree ∈ [defaults, file, empty], tree.DistinctKeys := by decide
  have hmerge : mergeAll "." [defaults, file, empty] = .ok merged := rfl
  have hmem : defaults ∈ [defaults, file, empty] := List.mem_cons_self
  exact ⟨hkeys, hmerge, mergeAll_precedence hkeys hmerge hmem rfl rfl⟩

end LayeredConfig.Tree
