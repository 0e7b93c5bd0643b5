import LayeredConfig.Proofs.Merge.Precedence

/-! # When trees do not merge

Trees fail to merge exactly when two of them lay nodes of different shapes at one path. Nothing that
is merged in between can hide such a clash, so the order of the trees does not matter. -/

namespace LayeredConfig.Tree

variable {delimiter : String} {path : List String}

/-! ## Two trees -/

/-- A failure names a path at which the two trees lay nodes of different shapes. -/
theorem clash_of_mergeAt_error {base incoming : Tree} {fault : Fault}
    (hkeys : incoming.DistinctKeys)
    (h : mergeAt delimiter path base incoming = .error fault) :
    ∃ below lower upper, base.layer? below = some lower ∧ incoming.layer? below = some upper ∧
      lower.shape ≠ upper.shape ∧ fault = collision delimiter (path ++ below) lower upper := by
  induction incoming using Tree.induction generalizing path base with
  | leaf value mark | array items mark ih =>
      obtain ⟨hbase, hincoming, ⟨hshape, hfault⟩ | ⟨_, _, _, _, _, heq, _⟩⟩ := mergeAt_error_cases h
      · exact ⟨[], _, _, layer?_nil hbase, layer?_nil hincoming, hshape, by simpa using hfault⟩
      · cases heq
  | map entries mark ih =>
      obtain ⟨hbase, hincoming, ⟨hshape, hfault⟩ | ⟨children, under, _, _, rfl, heq, hentries⟩⟩ :=
        mergeAt_error_cases h
      · exact ⟨[], _, _, layer?_nil hbase, layer?_nil hincoming, hshape, by simpa using hfault⟩
      · cases heq
        obtain ⟨key, existing, child, hexisting, hchild, hfault⟩ :=
          exists_mergeAt_error hkeys.keys_nodup hentries
        have hmem := Entries.mem_of_lookup hchild
        obtain ⟨below, lower, upper, hlower, hupper, hshape, heq⟩ :=
          ih key child hmem (hkeys.child hmem) hfault
        refine ⟨key :: below, lower, upper, ?_, ?_, hshape, ?_⟩
        · rw [layer?_cons, Tree.entries, hexisting]
          exact hlower
        · rw [layer?_cons, Tree.entries, hchild]
          exact hupper
        · rw [heq, List.append_assoc, List.singleton_append]

/-! ## Any number of trees -/

/-- Two of the trees lay nodes of different shapes at one path. -/
def Clash (trees : List Tree) : Prop :=
  ∃ path lower upper, lower ∈ layers path trees ∧ upper ∈ layers path trees ∧
    lower.shape ≠ upper.shape

theorem mem_layers {path : List String} {trees : List Tree} {node : Tree} :
    node ∈ layers path trees ↔
      ∃ tree ∈ trees, tree.node? path = some node ∧ node.isEmpty = false := by
  simp only [layers, List.mem_filterMap, layer?_eq_some_iff]

theorem Clash.mono {trees others : List Tree} (h : Clash trees)
    (hsubset : ∀ tree ∈ trees, tree ∈ others) : Clash others := by
  obtain ⟨path, lower, upper, hlower, hupper, hshape⟩ := h
  have hmono : ∀ node ∈ layers path trees, node ∈ layers path others := by
    intro node hnode
    obtain ⟨tree, htree, hfound⟩ := mem_layers.mp hnode
    exact mem_layers.mpr ⟨tree, hsubset tree htree, hfound⟩
  exact ⟨path, lower, upper, hmono lower hlower, hmono upper hupper, hshape⟩

/-- Merged trees remember the shape of every layer, so a clash cannot go unnoticed. -/
theorem not_clash_of_mergeAll {trees : List Tree} {merged : Tree}
    (hkeys : ∀ tree ∈ trees, tree.DistinctKeys) (h : mergeAll delimiter trees = .ok merged) :
    ¬ Clash trees := by
  rintro ⟨path, lower, upper, hlower, hupper, hshape⟩
  rcases layer?_mergeAll hkeys h path with ⟨hnone, _⟩ | ⟨node, _, hstack⟩
  · rw [hnone] at hlower
    cases hlower
  · exact hshape ((hstack.shape lower hlower).trans (hstack.shape upper hupper).symm)

/-- A failure comes from the lower trees or from the last merge. -/
theorem mergeAll_append_singleton_error {trees : List Tree} {tree : Tree} {fault : Fault}
    (h : mergeAll delimiter (trees ++ [tree]) = .error fault) :
    mergeAll delimiter trees = .error fault ∨
      ∃ below, mergeAll delimiter trees = .ok below ∧
        mergeAt delimiter [] below tree = .error fault := by
  rw [mergeAll_append_singleton] at h
  cases hbelow : mergeAll delimiter trees with
  | error cause =>
      rw [hbelow] at h
      exact .inl h
  | ok below =>
      rw [hbelow] at h
      exact .inr ⟨below, rfl, h⟩

/-- A failure is a mismatch of types, and it comes from a clash of two of the trees. -/
theorem clash_of_mergeAll_error {trees : List Tree} {fault : Fault}
    (hkeys : ∀ tree ∈ trees, tree.DistinctKeys) (h : mergeAll delimiter trees = .error fault) :
    Clash trees ∧ fault.category = .typeMismatch := by
  induction trees using List.reverseRecOn with
  | nil => cases h
  | append_singleton trees tree ih =>
      have hkeys' : ∀ tree ∈ trees, tree.DistinctKeys := fun tree htree =>
        hkeys tree (List.mem_append_left _ htree)
      rcases mergeAll_append_singleton_error h with hfault | ⟨below, hbelow, hfault⟩
      · obtain ⟨hclash, hcategory⟩ := ih hkeys' hfault
        exact ⟨hclash.mono fun tree htree => List.mem_append_left _ htree, hcategory⟩
      · obtain ⟨path, lower, upper, hlower, hupper, hshape, rfl⟩ :=
          clash_of_mergeAt_error (hkeys tree (by simp)) hfault
        -- The node below has the shape of every layer that went into it, so any of them clashes.
        rcases layer?_mergeAll hkeys' hbelow path with ⟨_, hnone⟩ | ⟨node, hnode, hstack⟩
        · rw [hnone] at hlower
          cases hlower
        · rw [hnode, Option.some.injEq] at hlower
          subst hlower
          obtain ⟨layer, hlayer⟩ := List.exists_mem_of_ne_nil _ hstack.ne_nil
          refine ⟨⟨path, layer, upper, ?_, ?_, ?_⟩, rfl⟩
          · rw [layers_append_singleton]
            exact List.mem_append_left _ hlayer
          · rw [layers_append_singleton, hupper]
            simp
          · rw [hstack.shape layer hlayer]
            exact hshape

/-- Trees fail to merge exactly when two of them clash. -/
theorem exists_mergeAll_error_iff_clash {trees : List Tree}
    (hkeys : ∀ tree ∈ trees, tree.DistinctKeys) :
    (∃ fault, mergeAll delimiter trees = .error fault) ↔ Clash trees := by
  constructor
  · rintro ⟨fault, h⟩
    exact (clash_of_mergeAll_error hkeys h).1
  · intro hclash
    cases h : mergeAll delimiter trees with
    | error fault => exact ⟨fault, rfl⟩
    | ok merged => exact (not_clash_of_mergeAll hkeys h hclash).elim

/-- Whether trees clash does not depend on their order. -/
theorem clash_perm {trees others : List Tree} (h : others.Perm trees) :
    Clash others ↔ Clash trees :=
  ⟨fun hclash => hclash.mono fun _ => h.mem_iff.mp, fun hclash => hclash.mono fun _ => h.mem_iff.mpr⟩

/-- Conflict detection is complete, and independent of the order of the trees. They fail to merge,
with a mismatch of types, exactly when two of them have nodes of different shapes at one path that
are both not empty. -/
theorem mergeAll_conflict_iff {trees : List Tree} (hkeys : ∀ tree ∈ trees, tree.DistinctKeys) :
    ((∃ fault, mergeAll delimiter trees = .error fault ∧ fault.category = .typeMismatch) ↔
      ∃ path, ∃ lower ∈ trees, ∃ upper ∈ trees, ∃ below above,
        lower.node? path = some below ∧ below.isEmpty = false ∧
        upper.node? path = some above ∧ above.isEmpty = false ∧ below.shape ≠ above.shape) ∧
    (∀ fault, mergeAll delimiter trees = .error fault → fault.category = .typeMismatch) ∧
    ∀ others, others.Perm trees →
      ((∃ fault, mergeAll delimiter others = .error fault) ↔
        ∃ fault, mergeAll delimiter trees = .error fault) := by
  refine ⟨?_, fun fault h => (clash_of_mergeAll_error hkeys h).2, ?_⟩
  · constructor
    · rintro ⟨fault, h, _⟩
      obtain ⟨path, below, above, hbelow, habove, hshape⟩ := (clash_of_mergeAll_error hkeys h).1
      obtain ⟨lower, hlower, hfound, hne⟩ := mem_layers.mp hbelow
      obtain ⟨upper, hupper, hfound', hne'⟩ := mem_layers.mp habove
      exact ⟨path, lower, hlower, upper, hupper, below, above, hfound, hne, hfound', hne', hshape⟩
    · rintro ⟨path, lower, hlower, upper, hupper, below, above, hfound, hne, hfound', hne', hshape⟩
      have hbelow : below ∈ layers path trees := mem_layers.mpr ⟨lower, hlower, hfound, hne⟩
      have habove : above ∈ layers path trees := mem_layers.mpr ⟨upper, hupper, hfound', hne'⟩
      have hclash : Clash trees := ⟨path, below, above, hbelow, habove, hshape⟩
      obtain ⟨fault, h⟩ := (exists_mergeAll_error_iff_clash hkeys).mpr hclash
      exact ⟨fault, h, (clash_of_mergeAll_error hkeys h).2⟩
  · intro others hperm
    have hkeys' : ∀ tree ∈ others, tree.DistinctKeys := fun tree htree =>
      hkeys tree (hperm.mem_iff.mp htree)
    rw [exists_mergeAll_error_iff_clash hkeys, exists_mergeAll_error_iff_clash hkeys',
      clash_perm hperm]

/-- An array that is replaced by an array still clashes with a map that comes first or last. -/
theorem mergeAll_conflict_hosts :
    let hosts (node : Tree) : Tree := map [("hosts", node)] {}
    let item : Tree := leaf (some (.text "a")) {}
    let first := hosts (array [item] {})
    let second := hosts (array [item, item] {})
    let third := hosts (map [("a", item)] {})
    (∀ tree ∈ [first, second, third], tree.DistinctKeys) ∧
      ∃ fault, mergeAll "." [third, first, second] = .error fault := by
  intro hosts item first second third
  have hkeys : ∀ tree ∈ [first, second, third], tree.DistinctKeys := by decide
  obtain ⟨hclash, _, hperm⟩ := @mergeAll_conflict_iff "." _ hkeys
  have hfound : ∃ fault, mergeAll "." [first, second, third] = .error fault ∧
      fault.category = .typeMismatch :=
    hclash.mpr ⟨["hosts"], first, by simp, third, by simp, array [item] {}, map [("a", item)] {},
      rfl, rfl, rfl, rfl, by decide⟩
  obtain ⟨fault, hfault, _⟩ := hfound
  have hmoved : ([third] ++ [first, second]).Perm ([first, second] ++ [third]) :=
    List.perm_append_comm
  exact ⟨hkeys, (hperm [third, first, second] hmoved).mpr ⟨fault, hfault⟩⟩

end LayeredConfig.Tree
