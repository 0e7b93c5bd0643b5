import LayeredConfig.Proofs.Expansion.Convergence

/-! # Parts of an expanded tree

A part of a tree is expanded as it would be by itself. The run over the tree may go on for longer
because of other parts, but it does nothing to a part that is settled; and no directive changes a
part in more passes than the whole. -/

namespace LayeredConfig.Expansion

variable {directives : List Directive} {delimiter : String} {path : List String}
  {tree node : Tree}

/-! ## What a part has from the whole -/

theorem changes_of_fetch {directive : Directive} (hnode : tree.fetch delimiter path = .ok node)
    (h : directive.changes node = true) : directive.changes tree = true := by
  obtain ⟨text, htext, hchanged⟩ := directive.changes_iff.mp h
  exact directive.changes_iff.mpr ⟨text, htext.of_fetch hnode, hchanged⟩

theorem Settled.of_fetch (hnode : tree.fetch delimiter path = .ok node)
    (h : Settled directives tree) : Settled directives node := by
  intro directive hdirective
  rw [Bool.eq_false_iff]
  intro hchanges
  have hwhole := changes_of_fetch hnode hchanges
  rw [h directive hdirective] at hwhole
  cases hwhole

theorem fetch_sweep (directives : List Directive) (hnode : tree.fetch delimiter path = .ok node) :
    (sweep directives tree).fetch delimiter path = .ok (sweep directives node) := by
  rw [(keepsStructure_sweep directives).fetch, hnode]
  rfl

theorem fetch_iterate (directives : List Directive) (count : Nat)
    (hnode : tree.fetch delimiter path = .ok node) :
    ((sweep directives)^[count] tree).fetch delimiter path =
      .ok ((sweep directives)^[count] node) := by
  rw [((keepsStructure_sweep directives).iterate count).fetch, hnode]
  rfl

theorem changesAt_of_fetch {i : Nat} (hnode : tree.fetch delimiter path = .ok node)
    (h : changesAt directives i node = true) : changesAt directives i tree = true := by
  rw [changesAt, Option.any_eq_true] at h ⊢
  obtain ⟨directive, hdirective, hchanges⟩ := h
  exact ⟨directive, hdirective, changes_of_fetch (fetch_sweep _ hnode) hchanges⟩

/-- A part is changed in no more passes than the tree. -/
theorem changingPasses_le_of_fetch (hnode : tree.fetch delimiter path = .ok node) (i count : Nat) :
    changingPasses directives i count node ≤ changingPasses directives i count tree := by
  induction count generalizing tree node with
  | zero => exact Nat.le_refl _
  | succ count ih =>
      have hnow : (changesAt directives i node).toNat ≤ (changesAt directives i tree).toNat := by
        cases hchanges : changesAt directives i node with
        | false => exact Nat.zero_le _
        | true =>
            have hwhole := changesAt_of_fetch hnode hchanges
            exact Nat.le_of_eq (congrArg Bool.toNat hwhole.symm)
      exact Nat.add_le_add hnow (ih (fetch_sweep directives hnode))

theorem Overruns.of_fetch {directive : Directive} (hnode : tree.fetch delimiter path = .ok node)
    (h : Overruns directives node directive) : Overruns directives tree directive := by
  obtain ⟨i, hdirective, count, hcount⟩ := h
  exact ⟨i, hdirective, count,
    Nat.lt_of_lt_of_le hcount (changingPasses_le_of_fetch hnode i count)⟩

/-! ## Expanding a part -/

/-- A part of an expanded tree is the part, expanded. -/
theorem expand_part {expanded : Tree} (hexpand : (tree.expand directives).result = .ok expanded)
    (hnode : tree.fetch delimiter path = .ok node) :
    ∃ part, (node.expand directives).result = .ok part ∧
      expanded.fetch delimiter path = .ok part := by
  obtain ⟨⟨count, rfl⟩, hsettled, hoverruns⟩ := expand_ok hexpand
  obtain ⟨part, hpart⟩ := exists_expand_ok fun directive h =>
    hoverruns directive (h.of_fetch hnode)
  obtain ⟨⟨others, rfl⟩, hpartSettled, _⟩ := expand_ok hpart
  -- Both runs follow the same passes, and each stops at a tree that no pass changes.
  have hfetch := fetch_iterate directives count hnode
  rw [(hsettled.of_fetch hfetch).iterate_eq hpartSettled] at hfetch
  exact ⟨_, hpart, hfetch⟩

/-- What is not in a tree is not in the expanded tree, either. -/
theorem fetch_expanded_error {expanded : Tree} {fault : Fault}
    (hexpand : (tree.expand directives).result = .ok expanded)
    (hnode : tree.fetch delimiter path = .error fault) :
    expanded.fetch delimiter path = .error fault := by
  obtain ⟨⟨count, rfl⟩, _⟩ := expand_ok hexpand
  rw [((keepsStructure_sweep directives).iterate count).fetch, hnode]
  rfl

/-- Expansion is compositional: expanding and fetching may be exchanged, in success and in failure.
Hence a part does not depend on the tree around it. -/
theorem expand_fetch {expanded : Tree} (hexpand : (tree.expand directives).result = .ok expanded)
    (delimiter : String) (path : List String) :
    (∀ node, tree.fetch delimiter path = .ok node →
        ∃ part, (node.expand directives).result = .ok part ∧
          expanded.fetch delimiter path = .ok part) ∧
      (∀ fault, tree.fetch delimiter path = .error fault →
        expanded.fetch delimiter path = .error fault) ∧
      ∀ (node other otherExpanded : Tree) (place : List String),
        tree.fetch delimiter path = .ok node → other.fetch delimiter place = .ok node →
        (other.expand directives).result = .ok otherExpanded →
        otherExpanded.fetch delimiter place = expanded.fetch delimiter path := by
  refine ⟨fun node => expand_part hexpand, fun fault => fetch_expanded_error hexpand, ?_⟩
  intro node other otherExpanded place hnode hother hotherExpand
  obtain ⟨part, hpart, hfetch⟩ := expand_part hexpand hnode
  obtain ⟨otherPart, hotherPart, hotherFetch⟩ := expand_part hotherExpand hother
  cases hpart.symm.trans hotherPart
  rw [hfetch, hotherFetch]

/-- The run over both leaves has a pass more than the run over the second one needs. -/
theorem expand_fetch_second :
    let directive : Directive :=
      { lookup := fun name => (if name = "a" then "$(b)" else name, true), origin := "names"
        opening := ['$', '('], closing := [')'], maximum := 2
        opening_ne := by simp, closing_ne := by simp, maximum_pos := by decide }
    let leaf (text : String) (origins : List Origin) : Tree := .leaf (some (.text text)) { origins }
    let pair (first second : Tree) : Tree := .map [("first", first), ("second", second)] {}
    let names : List Origin := [⟨"names", 0, 0⟩]
    let tree := pair (leaf "$(a)" []) (leaf "$(c)" [])
    let expanded := pair (leaf "b" names) (leaf "c" names)
    (tree.expand [directive]).result = .ok expanded ∧
      tree.fetch "." ["second"] = .ok (leaf "$(c)" []) ∧
      ∃ part, ((leaf "$(c)" []).expand [directive]).result = .ok part ∧
        expanded.fetch "." ["second"] = .ok part := by
  intro directive leaf pair names tree expanded
  have hfirst : (runPass (.full [directive]) tree).result =
      .ok ⟨pair (leaf "$(b)" names) (leaf "c" names), [(directive, 1)], true⟩ := by cbv
  have hsecond : (runPass [(directive, 1)] (pair (leaf "$(b)" names) (leaf "c" names))).result =
      .ok ⟨expanded, [(directive, 0)], true⟩ := by cbv
  have hthird : (runPass [(directive, 0)] expanded).result =
      .ok ⟨expanded, [(directive, 0)], false⟩ := by cbv
  have hexpand : (tree.expand [directive]).result = .ok expanded :=
    expand_eq_iff.mpr ⟨3, .goesOn hfirst rfl (.goesOn hsecond rfl (.settles hthird rfl))⟩
  have hnode : tree.fetch "." ["second"] = .ok (leaf "$(c)" []) := rfl
  exact ⟨hexpand, hnode, (expand_fetch hexpand "." ["second"]).1 _ hnode⟩

end LayeredConfig.Expansion
