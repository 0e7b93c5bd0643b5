import LayeredConfig.Proofs.Expansion.Convergence
import LayeredConfig.Proofs.Merge.Precedence
import LayeredConfig.Proofs.Secrets.Redaction

/-! # Secret marks on their way

Once one of the trees marks a place secret, no other tree takes the mark away, neither below nor on
top of it, and expansion does not touch marks. So the place is redacted in what comes out. -/

namespace LayeredConfig.Tree

variable {delimiter : String} {path : List String}

/-- What one tree marks secret is secret in the merged tree. -/
theorem isSecret_mergeAll {trees : List Tree} {tree found merged : Tree}
    (hkeys : ∀ tree ∈ trees, tree.DistinctKeys) (h : mergeAll delimiter trees = .ok merged)
    (htree : tree ∈ trees) (hfound : tree.node? path = some found)
    (hne : found.isEmpty = false) (hsecret : found.isSecret = true) :
    ∃ node, merged.node? path = some node ∧ node.isSecret = true := by
  have hmem : found ∈ layers path trees :=
    List.mem_filterMap.mpr ⟨tree, htree, layer?_eq_some_iff.mpr ⟨hfound, hne⟩⟩
  rcases layer?_mergeAll hkeys h path with ⟨hnone, _⟩ | ⟨node, hnode, hstack⟩
  · rw [hnone] at hmem
    cases hmem
  · refine ⟨node, (layer?_eq_some_iff.mp hnode).1, ?_⟩
    rw [hstack.secret]
    exact List.any_eq_true.mpr ⟨found, hmem, hsecret⟩

/-- Of two trees that lay a node at a place, the mark of either is kept. -/
theorem map_isSecret_mergeAll {first second merged : Tree} (hfirst : first.DistinctKeys)
    (hsecond : second.DistinctKeys) (h : mergeAll delimiter [first, second] = .ok merged)
    (path : List String) :
    (merged.layer? path).map isSecret =
      ((first.layer? path).map isSecret).merge (· || ·) ((second.layer? path).map isSecret) := by
  have hkeys : ∀ tree ∈ [first, second], tree.DistinctKeys := by simp [hfirst, hsecond]
  have hlayers : layers path [first, second] =
      (first.layer? path).toList ++ (second.layer? path).toList := by
    rw [layers, List.filterMap_cons, List.filterMap_cons]
    cases first.layer? path <;> cases second.layer? path <;> rfl
  have hlaid := layer?_mergeAll hkeys h path
  rw [hlayers] at hlaid
  generalize first.layer? path = one? at hlaid ⊢
  generalize second.layer? path = two? at hlaid ⊢
  rcases hlaid with ⟨hnone, hlayer⟩ | ⟨node, hlayer, hstack⟩
  · rw [List.append_eq_nil_iff, Option.toList_eq_nil_iff, Option.toList_eq_nil_iff] at hnone
    rw [hlayer, hnone.1, hnone.2]
    rfl
  · rw [hlayer, Option.map_some, hstack.secret]
    cases one? with
    | some one => cases two? <;> simp
    | none =>
        cases two? with
        | none => exact (hstack.ne_nil rfl).elim
        | some two => simp

/-- What is secret before expansion is secret after it. -/
theorem isSecret_expand {directives : List Directive} {tree node expanded : Tree}
    (h : (tree.expand directives).result = .ok expanded) (hnode : tree.node? path = some node)
    (hsecret : node.isSecret = true) :
    ∃ found, expanded.node? path = some found ∧ found.isSecret = true := by
  obtain ⟨⟨count, rfl⟩, _⟩ := Expansion.expand_ok h
  have hkeeps := (Expansion.keepsStructure_sweep directives).iterate count
  refine ⟨_, ?_, (hkeeps.isSecret node).trans hsecret⟩
  rw [hkeeps.node?, hnode]
  rfl

/-- Secret marks are sticky. A place that one of the trees marks secret is secret in the compiled
tree wherever that tree stands among the others; and redaction leaves nothing but its text at the
first secret node on the way there. Only an empty node may lose its mark, and no node with an origin
is empty. -/
theorem secret_redacted {trees : List Tree} {directives : List Directive}
    {merged compiled tree found : Tree} (hkeys : ∀ tree ∈ trees, tree.DistinctKeys)
    (hmerge : mergeAll delimiter trees = .ok merged)
    (hexpand : (merged.expand directives).result = .ok compiled) (htree : tree ∈ trees)
    (hfound : tree.node? path = some found) (hne : found.isEmpty = false)
    (hsecret : found.isSecret = true) :
    (∃ node, compiled.node? path = some node ∧ node.isSecret = true) ∧
      (∃ before first, FirstSecret compiled path before first) ∧
      ∀ before first, FirstSecret compiled path before first →
        compiled.redacted.node? before = some (leaf (some (.text redactedText)) first.mark) := by
  obtain ⟨below, hbelow, hmarked⟩ := isSecret_mergeAll hkeys hmerge htree hfound hne hsecret
  obtain ⟨node, hnode, hmarked⟩ := isSecret_expand hexpand hbelow hmarked
  exact ⟨⟨node, hnode, hmarked⟩, exists_firstSecret hnode hmarked,
    fun _ _ hfirst => hfirst.node?_redacted⟩

/-- A secret password of the defaults that a file takes from a variable remains secret. -/
theorem secret_redacted_password :
    let directive : Directive :=
      { lookup := fun name => (name ++ "!", true), origin := "names"
        opening := ['$', '('], closing := [')'], maximum := 1
        opening_ne := by simp, closing_ne := by simp, maximum_pos := by decide }
    let password (text : String) (mark : Mark) : Tree :=
      map [("db", map [("password", leaf (some (.text text)) mark)] {})] {}
    let defaults := password "none" { origins := [⟨"defaults", 0, 0⟩], secret := true }
    let file := password "$(open)" { origins := [⟨"app.yaml", 2, 3⟩] }
    let both : Mark := { origins := [⟨"defaults", 0, 0⟩, ⟨"app.yaml", 2, 3⟩], secret := true }
    let merged := password "$(open)" both
    let compiled := password "open!" { both with origins := both.origins ++ [⟨"names", 0, 0⟩] }
    (∀ tree ∈ [defaults, file], tree.DistinctKeys) ∧
      mergeAll "." [defaults, file] = .ok merged ∧
      (merged.expand [directive]).result = .ok compiled ∧
      (∃ node, compiled.node? ["db", "password"] = some node ∧ node.isSecret = true) ∧
      (∃ before first, FirstSecret compiled ["db", "password"] before first) ∧
      ∀ before first, FirstSecret compiled ["db", "password"] before first →
        compiled.redacted.node? before = some (leaf (some (.text redactedText)) first.mark) := by
  intro directive password defaults file both merged compiled
  have hkeys : ∀ tree ∈ [defaults, file], tree.DistinctKeys := by decide
  have hmerge : mergeAll "." [defaults, file] = .ok merged := rfl
  have hfirst : (Expansion.runPass (.full [directive]) merged).result =
      .ok ⟨compiled, [(directive, 0)], true⟩ := by cbv
  have hsecond : (Expansion.runPass [(directive, 0)] compiled).result =
      .ok ⟨compiled, [(directive, 0)], false⟩ := by cbv
  have hexpand : (merged.expand [directive]).result = .ok compiled :=
    Expansion.expand_eq_iff.mpr ⟨2, .goesOn hfirst rfl (.settles hsecond rfl)⟩
  have hmem : defaults ∈ [defaults, file] := List.mem_cons_self
  exact ⟨hkeys, hmerge, hexpand, secret_redacted hkeys hmerge hexpand hmem rfl rfl rfl⟩

end LayeredConfig.Tree
