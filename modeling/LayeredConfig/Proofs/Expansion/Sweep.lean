import LayeredConfig.Proofs.Expansion.Rewrite

/-! # Passes without budgets

Directives go through a tree in turn, pass after pass, and nothing stops them. Once a pass changes
nothing the tree is settled, and no later pass changes it either. -/

namespace LayeredConfig.Expansion

/-- One pass: every directive goes through the tree in turn. -/
def sweep (directives : List Directive) (tree : Tree) : Tree :=
  directives.foldl (fun tree directive => directive.rewrite tree) tree

theorem sweep_cons (directive : Directive) (rest : List Directive) (tree : Tree) :
    sweep (directive :: rest) tree = sweep rest (directive.rewrite tree) := rfl

theorem keepsStructure_sweep (directives : List Directive) :
    Tree.KeepsStructure (sweep directives) := by
  induction directives with
  | nil => exact .id
  | cons directive rest ih => exact ih.comp directive.keepsStructure_rewrite

/-- Whether directive number `i` changes the tree as the directives before it leave it in a pass. -/
def changesAt (directives : List Directive) (i : Nat) (tree : Tree) : Bool :=
  directives[i]?.any fun directive => directive.changes (sweep (directives.take i) tree)

/-- In how many of the first passes directive number `i` changes the tree. -/
def changingPasses (directives : List Directive) (i : Nat) : Nat → Tree → Nat
  | 0, _ => 0
  | count + 1, tree =>
    (changesAt directives i tree).toNat +
      changingPasses directives i count (sweep directives tree)

/-- No directive has anything to change. -/
def Settled (directives : List Directive) (tree : Tree) : Prop :=
  ∀ directive ∈ directives, directive.changes tree = false

section Settled

variable {directives : List Directive} {tree : Tree}

theorem Settled.sweep_eq (h : Settled directives tree) : sweep directives tree = tree := by
  induction directives with
  | nil => rfl
  | cons directive rest ih =>
      rw [sweep_cons, directive.rewrite_of_not_changes (h directive List.mem_cons_self)]
      exact ih fun other hother => h other (List.mem_cons_of_mem _ hother)

theorem Settled.changesAt_eq (h : Settled directives tree) (i : Nat) :
    changesAt directives i tree = false := by
  have htake : Settled (directives.take i) tree := fun directive hmem =>
    h directive (List.mem_of_mem_take hmem)
  rw [changesAt, htake.sweep_eq]
  cases hdirective : directives[i]? with
  | none => rfl
  | some directive => exact h directive (List.mem_of_getElem? hdirective)

theorem Settled.changingPasses_eq (h : Settled directives tree) (i count : Nat) :
    changingPasses directives i count tree = 0 := by
  induction count with
  | zero => rfl
  | succ count ih => rw [changingPasses, h.changesAt_eq, h.sweep_eq, ih]; rfl

theorem Settled.iterate_of_le {m n : Nat} (hm : Settled directives ((sweep directives)^[m] tree))
    (hle : m ≤ n) : (sweep directives)^[n] tree = (sweep directives)^[m] tree := by
  obtain ⟨more, rfl⟩ := Nat.exists_eq_add_of_le hle
  rw [Nat.add_comm, Function.iterate_add_apply, Function.iterate_fixed hm.sweep_eq]

/-- Passes lead to one settled tree at most. -/
theorem Settled.iterate_eq {m n : Nat} (hm : Settled directives ((sweep directives)^[m] tree))
    (hn : Settled directives ((sweep directives)^[n] tree)) :
    (sweep directives)^[m] tree = (sweep directives)^[n] tree := by
  rcases Nat.le_total m n with hle | hle
  · exact (hm.iterate_of_le hle).symm
  · exact hn.iterate_of_le hle

end Settled

end LayeredConfig.Expansion
