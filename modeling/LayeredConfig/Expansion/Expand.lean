import LayeredConfig.Expansion.Substitute
import LayeredConfig.Log

/-!
# Expansion

Every text leaf of a tree is substituted, by each directive in turn, pass after pass until a pass
changes nothing. A directive may change the tree in as many passes as its budget allows; in one more
the expansion has not converged. Budgets only shrink, so the passes come to an end.
-/

namespace LayeredConfig

/-- The outcome of one directive on a tree. -/
structure Expanded (α : Type) where
  value : α
  changed : Bool
  /-- The origins of leaves with a placeholder that is never closed. -/
  loose : List (List Origin)

namespace Directive

/-- Adds the label of the directive to the origins of a leaf, unless it is the last one. -/
def annotate (directive : Directive) (origins : List Origin) : List Origin :=
  let marker : Origin := { source := directive.origin }
  if directive.origin.isEmpty || origins.getLast? == some marker then origins
  else origins ++ [marker]

mutual

/-- Substitutes every text leaf once. -/
def expandOnce (directive : Directive) : Tree → Expanded Tree
  | .leaf (some (.text text)) mark =>
    let (result, changed, unterminated) := directive.substitute text
    { value :=
        if changed then
          .leaf (some (.text result)) { mark with origins := directive.annotate mark.origins }
        else .leaf (some (.text text)) mark
      changed
      loose := if unterminated then [mark.origins] else [] }
  | .leaf value mark => ⟨.leaf value mark, false, []⟩
  | .map entries mark =>
    let inner := expandEntriesOnce directive entries
    ⟨.map inner.value mark, inner.changed, inner.loose⟩
  | .array items mark =>
    let inner := expandItemsOnce directive items
    ⟨.array inner.value mark, inner.changed, inner.loose⟩

def expandEntriesOnce (directive : Directive) :
    List (String × Tree) → Expanded (List (String × Tree))
  | [] => ⟨[], false, []⟩
  | (key, child) :: rest =>
    let first := expandOnce directive child
    let others := expandEntriesOnce directive rest
    { value := (key, first.value) :: others.value
      changed := first.changed || others.changed
      loose := first.loose ++ others.loose }

def expandItemsOnce (directive : Directive) : List Tree → Expanded (List Tree)
  | [] => ⟨[], false, []⟩
  | item :: rest =>
    let first := expandOnce directive item
    let others := expandItemsOnce directive rest
    { value := first.value :: others.value
      changed := first.changed || others.changed
      loose := first.loose ++ others.loose }

end

end Directive

namespace Expansion

/-- A directive and the number of changing passes it has left. -/
abbrev Budgets := List (Directive × Nat)

def Budgets.left (budgets : Budgets) : Nat := (budgets.map (·.2)).foldr (· + ·) 0

/-- The report on a leaf whose placeholder is never closed. -/
def looseEvent (origins : List Origin) : Event :=
  { level := .debug, message := "expansion_unterminated"
    fields := [("source", .text "expand"),
      ("value_origin", .list (origins.map fun origin => .text origin.toText))] }

/-- The state after a pass of all directives. -/
structure Pass where
  tree : Tree
  budgets : Budgets
  changed : Bool

/-- One pass: every directive in turn, each paying for a change out of its budget. -/
def runPass : Budgets → Tree → Traced Pass
  | [], tree => .pure ⟨tree, [], false⟩
  | (directive, budget) :: rest, tree =>
    let step := directive.expandOnce tree
    let events := step.loose.map looseEvent
    if step.changed && budget == 0 then
      ⟨events, .error (.notConverged directive.label directive.maximum)⟩
    else
      let others := runPass rest step.value
      { events := events ++ others.events
        result := others.result.map fun pass =>
          { tree := pass.tree
            budgets := (directive, if step.changed then budget - 1 else budget) :: pass.budgets
            changed := step.changed || pass.changed } }

theorem runPass_left {budgets : Budgets} {tree : Tree} {pass : Pass}
    (h : (runPass budgets tree).result = .ok pass) :
    pass.budgets.left ≤ budgets.left ∧
      (pass.changed = true → pass.budgets.left < budgets.left) := by
  induction budgets generalizing tree pass with
  | nil =>
    simp only [runPass, Traced.pure, Except.ok.injEq] at h
    subst h
    simp [Budgets.left]
  | cons head rest ih =>
    obtain ⟨directive, budget⟩ := head
    simp only [runPass] at h
    split at h
    · simp at h
    · next hbudget =>
      cases hrest : (runPass rest (directive.expandOnce tree).value).result with
      | error fault => simp [hrest, Except.map] at h
      | ok inner =>
        simp only [hrest, Except.map, Except.ok.injEq] at h
        subst h
        have hinner := ih hrest
        simp only [Budgets.left, List.map_cons, List.foldr_cons] at hinner ⊢
        cases hchanged : (directive.expandOnce tree).changed with
        | false =>
          simp only [Bool.false_or, Bool.false_eq_true, if_false]
          refine ⟨by omega, fun hpass => ?_⟩
          have := hinner.2 hpass
          omega
        | true =>
          simp only [hchanged, Bool.true_and, beq_iff_eq] at hbudget
          simp only [if_true]
          omega

/-- Passes until one changes nothing; the count of passes stands beside the tree. -/
def run (budgets : Budgets) (passes : Nat) (tree : Tree) : Traced (Tree × Nat) :=
  match _h : (runPass budgets tree).result with
  | .error fault => ⟨(runPass budgets tree).events, .error fault⟩
  | .ok pass =>
    if _hchanged : pass.changed = true then
      let rest := run pass.budgets (passes + 1) pass.tree
      ⟨(runPass budgets tree).events ++ rest.events, rest.result⟩
    else ⟨(runPass budgets tree).events, .ok (pass.tree, passes + 1)⟩
termination_by budgets.left
decreasing_by exact (runPass_left _h).2 _hchanged

end Expansion

/-- The tree with every placeholder expanded as far as the directives reach. -/
def Tree.expand (directives : List Directive) (tree : Tree) : Traced Tree :=
  if directives.isEmpty then .pure tree
  else do
    let (expanded, passes) ← Expansion.run (directives.map fun d => (d, d.maximum)) 0 tree
    Traced.emit
      { level := .debug, message := "expansion_finished"
        fields := [("source", .text "expand"), ("passes", .int passes),
          ("directives", .int directives.length)] }
    return expanded

end LayeredConfig
