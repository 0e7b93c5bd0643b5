import LayeredConfig.Proofs.Expansion.Passes
import Mathlib

/-! # Convergence

Trees are expanded by a run in which every directive may change the tree in as many passes as its
maximum says. It fails exactly when the passes without budgets would exceed a maximum, and what it
yields is settled for all directives at once. -/

namespace LayeredConfig.Expansion

/-- Budgets of which nothing is used yet. -/
def Budgets.full (directives : List Directive) : Budgets :=
  directives.map fun directive => (directive, directive.maximum)

@[simp] theorem Budgets.directives_full (directives : List Directive) :
    (full directives).directives = directives := by
  simp [full, Budgets.directives, Function.comp_def]

theorem Budgets.left_full (directives : List Directive) :
    (full directives).left = (directives.map Directive.maximum).sum := by
  simp [full, left, List.sum, Function.comp_def]

theorem expand_cons (directive : Directive) (rest : List Directive) (tree : Tree) :
    (tree.expand (directive :: rest)).result =
      (run (.full (directive :: rest)) 0 tree).result.map (·.1) := by
  rw [Tree.expand]
  change (Traced.bind (run (.full (directive :: rest)) 0 tree) _).result = _
  rw [Traced.bind]
  cases (run (.full (directive :: rest)) 0 tree).result <;> rfl

/-- A tree is expanded by the run of passes with full budgets. -/
theorem expand_eq_iff {directives : List Directive} {tree : Tree}
    {outcome : Except Fault Tree} :
    (tree.expand directives).result = outcome ↔
      ∃ count, Passes (.full directives) tree count outcome := by
  have hpasses : ∃ count, Passes (.full directives) tree count (tree.expand directives).result := by
    cases directives with
    | nil =>
        have hpass : (runPass (.full []) tree).result = .ok ⟨tree, [], false⟩ := rfl
        exact ⟨1, .settles hpass rfl⟩
    | cons directive rest =>
        obtain ⟨count, result, hrun, hresult⟩ := run_passes (.full (directive :: rest)) 0 tree
        refine ⟨count, ?_⟩
        rw [expand_cons, hresult]
        cases result <;> exact hrun
  obtain ⟨count, hcount⟩ := hpasses
  constructor
  · rintro rfl
    exact ⟨count, hcount⟩
  · rintro ⟨others, hothers⟩
    exact (hcount.unique hothers).2

/-- The directive would change the tree in more passes than its maximum, if nothing stopped it. -/
def Overruns (directives : List Directive) (tree : Tree) (directive : Directive) : Prop :=
  ∃ i, directives[i]? = some directive ∧
    ∃ count, directive.maximum < changingPasses directives i count tree

section Outcome

variable {directives : List Directive} {tree expanded : Tree}

theorem Settled.not_overruns (h : Settled directives tree) (directive : Directive) :
    ¬ Overruns directives tree directive := by
  rintro ⟨i, _, count, hcount⟩
  rw [h.changingPasses_eq] at hcount
  cases hcount

/-- What is expanded has followed the passes up to a settled tree, and no directive overruns. -/
theorem expand_ok (h : (tree.expand directives).result = .ok expanded) :
    (∃ count, expanded = (sweep directives)^[count] tree) ∧ Settled directives expanded ∧
      ∀ directive, ¬ Overruns directives tree directive := by
  obtain ⟨count, hpasses⟩ := expand_eq_iff.mp h
  obtain ⟨hexpanded, hsettled, hbudgets⟩ := hpasses.of_ok
  rw [Budgets.directives_full] at hexpanded hsettled hbudgets
  refine ⟨⟨count, hexpanded⟩, hsettled, ?_⟩
  rintro directive ⟨i, hdirective, more, hmore⟩
  have hentry : (Budgets.full directives)[i]? = some (directive, directive.maximum) := by
    simp [Budgets.full, hdirective]
  exact Nat.not_lt.mpr (hbudgets i _ hentry more) hmore

/-- Only a directive that overruns keeps a tree from being expanded, and it is named. -/
theorem expand_error {fault : Fault} (h : (tree.expand directives).result = .error fault) :
    ∃ directive, Overruns directives tree directive ∧
      fault = .notConverged directive.label directive.maximum := by
  obtain ⟨count, hpasses⟩ := expand_eq_iff.mp h
  obtain ⟨i, directive, budget, hentry, hmore, hfault⟩ := hpasses.of_error
  rw [Budgets.full, List.getElem?_map] at hentry
  obtain ⟨found, hfound, heq⟩ := Option.map_eq_some_iff.mp hentry
  cases heq
  rw [Budgets.directives_full] at hmore
  exact ⟨_, ⟨i, hfound, hmore⟩, hfault⟩

theorem exists_expand_ok (h : ∀ directive, ¬ Overruns directives tree directive) :
    ∃ expanded, (tree.expand directives).result = .ok expanded := by
  cases hresult : (tree.expand directives).result with
  | error fault =>
      obtain ⟨directive, hoverruns, _⟩ := expand_error hresult
      exact (h directive hoverruns).elim
  | ok expanded => exact ⟨expanded, rfl⟩

theorem expand_of_settled (h : Settled directives tree) :
    (tree.expand directives).result = .ok tree := by
  obtain ⟨expanded, hexpanded⟩ := exists_expand_ok h.not_overruns
  obtain ⟨⟨count, rfl⟩, _⟩ := expand_ok hexpanded
  rw [hexpanded, Function.iterate_fixed h.sweep_eq]

/-- In a settled tree no text holds a placeholder that a directive would exchange. -/
theorem Settled.substitute_eq (h : Settled directives tree) {directive : Directive}
    (hdirective : directive ∈ directives) {text : String} (htext : tree.HasText text) :
    (directive.substitute text).1 = text ∧ (directive.substitute text).2.1 = false := by
  have hchanged : (directive.substitute text).2.1 = false := by
    rw [Bool.eq_false_iff]
    intro hchanged
    have hchanges := directive.changes_iff.mpr ⟨text, htext, hchanged⟩
    rw [h directive hdirective] at hchanges
    cases hchanges
  exact ⟨Directive.substitute_of_not_changed hchanged, hchanged⟩

end Outcome

/-- Expansion is bounded, and it ends in a fixed point. There is one pass more than the maxima of
the directives add up to, at most; it fails exactly when a directive overruns its maximum; and in
what it yields no directive has anything to exchange, so that expanding it again gives it back. -/
theorem expand_converges (directives : List Directive) (tree : Tree) :
    (∃ count, Passes (.full directives) tree count (tree.expand directives).result ∧
        count ≤ 1 + (directives.map Directive.maximum).sum) ∧
      ((∃ fault, (tree.expand directives).result = .error fault) ↔
        ∃ directive, Overruns directives tree directive) ∧
      (∀ fault, (tree.expand directives).result = .error fault →
        ∃ directive, Overruns directives tree directive ∧
          fault = .notConverged directive.label directive.maximum) ∧
      ∀ expanded, (tree.expand directives).result = .ok expanded →
        (∀ directive ∈ directives, ∀ text, expanded.HasText text →
          (directive.substitute text).1 = text ∧ (directive.substitute text).2.1 = false) ∧
        (expanded.expand directives).result = .ok expanded := by
  refine ⟨?_, ⟨?_, ?_⟩, fun fault => expand_error, ?_⟩
  · obtain ⟨count, hpasses⟩ := expand_eq_iff.mp (rfl : (tree.expand directives).result = _)
    refine ⟨count, hpasses, ?_⟩
    rw [← Budgets.left_full]
    exact hpasses.count_le
  · rintro ⟨fault, hfault⟩
    exact (expand_error hfault).imp fun _ h => h.1
  · rintro ⟨directive, hoverruns⟩
    cases hresult : (tree.expand directives).result with
    | error fault => exact ⟨fault, rfl⟩
    | ok expanded => exact ((expand_ok hresult).2.2 directive hoverruns).elim
  · intro expanded hexpanded
    obtain ⟨_, hsettled, _⟩ := expand_ok hexpanded
    exact ⟨fun _ hdirective _ htext => hsettled.substitute_eq hdirective htext,
      expand_of_settled hsettled⟩

/-- A placeholder that is exchanged for itself overruns any maximum, although no pass over its text
changes anything: exchanges are what is counted, and not their effect. -/
theorem expand_loop_not_converged :
    let loop : Directive :=
      { lookup := fun name => ("$(" ++ name ++ ")", true), origin := ""
        opening := ['$', '('], closing := [')'], maximum := 1
        opening_ne := by simp, closing_ne := by simp, maximum_pos := by decide }
    let tree : Tree := .leaf (some (.text "$(a)")) {}
    (∀ count, loop.rewrite ((sweep [loop])^[count] tree) = (sweep [loop])^[count] tree) ∧
      (tree.expand [loop]).result = .error (.notConverged "$()" 1) := by
  intro loop tree
  have hrewrite : loop.rewrite tree = tree := by cbv
  have hfirst : (runPass (.full [loop]) tree).result = .ok ⟨tree, [(loop, 0)], true⟩ := by cbv
  have hsecond : (runPass [(loop, 0)] tree).result = .error (.notConverged "$()" 1) := by cbv
  refine ⟨fun count => ?_, expand_eq_iff.mpr ⟨2, .goesOn hfirst rfl (.fails hsecond)⟩⟩
  rw [Function.iterate_fixed (show sweep [loop] tree = tree from hrewrite), hrewrite]

end LayeredConfig.Expansion
