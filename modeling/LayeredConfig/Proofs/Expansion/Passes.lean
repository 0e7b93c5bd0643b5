import LayeredConfig.Proofs.Expansion.Sweep

/-! # Runs of passes

A run follows the passes without budgets until one of them changes nothing, or until a directive
changes the tree once more than its budget allows. Each pass that changes something uses budgets up,
so there are no more passes than budgets and one. -/

namespace LayeredConfig.Expansion

/-! ## One pass with budgets -/

def Budgets.directives (budgets : Budgets) : List Directive := budgets.map (·.1)

/-- What a pass that is paid for does: each directive that changes the tree pays for it. -/
structure Paid (budgets : Budgets) (tree : Tree) (pass : Pass) : Prop where
  tree_eq : pass.tree = sweep budgets.directives tree
  budgets_eq : ∀ i, pass.budgets[i]? = budgets[i]?.map fun entry =>
    (entry.1, entry.2 - (changesAt budgets.directives i tree).toNat)
  affordable : ∀ i entry, budgets[i]? = some entry →
    (changesAt budgets.directives i tree).toNat ≤ entry.2
  settled : pass.changed = false → Settled budgets.directives tree

theorem runPass_cons (directive : Directive) (budget : Nat) (rest : Budgets) (tree : Tree) :
    (runPass ((directive, budget) :: rest) tree).result =
      if directive.changes tree && budget == 0 then
        .error (.notConverged directive.label directive.maximum)
      else (runPass rest (directive.rewrite tree)).result.map fun pass =>
        { tree := pass.tree
          budgets := (directive, budget - (directive.changes tree).toNat) :: pass.budgets
          changed := directive.changes tree || pass.changed } := by
  have hleft : budget - (directive.changes tree).toNat =
      if directive.changes tree then budget - 1 else budget := by
    cases directive.changes tree <;> rfl
  rw [runPass, hleft]
  by_cases hbroke : directive.changes tree && budget == 0
  · rw [if_pos hbroke]
    exact congrArg Traced.result (if_pos hbroke)
  · rw [if_neg hbroke]
    exact congrArg Traced.result (if_neg hbroke)

theorem Paid.cons {directive : Directive} {budget : Nat} {rest : Budgets} {tree : Tree}
    {pass : Pass} (h : Paid rest (directive.rewrite tree) pass)
    (hbudget : (directive.changes tree).toNat ≤ budget) :
    Paid ((directive, budget) :: rest) tree
      { tree := pass.tree
        budgets := (directive, budget - (directive.changes tree).toNat) :: pass.budgets
        changed := directive.changes tree || pass.changed } where
  tree_eq := h.tree_eq
  budgets_eq i := by
    cases i with
    | zero => rfl
    | succ i => exact h.budgets_eq i
  affordable i entry hentry := by
    cases i with
    | zero =>
        cases hentry
        exact hbudget
    | succ i => exact h.affordable i entry hentry
  settled hchanged other hother := by
    obtain ⟨hfirst, hrest⟩ := Bool.or_eq_false_iff.mp hchanged
    rcases List.mem_cons.mp hother with rfl | hother
    · exact hfirst
    · have hsettled := h.settled hrest other hother
      rwa [directive.rewrite_of_not_changes hfirst] at hsettled

/-- A pass is paid for, or it fails because of a directive that has nothing left to pay with. -/
theorem runPass_cases (budgets : Budgets) (tree : Tree) :
    (∃ pass, (runPass budgets tree).result = .ok pass ∧ Paid budgets tree pass) ∨
      ∃ i directive, budgets[i]? = some (directive, 0) ∧
        changesAt budgets.directives i tree = true ∧
        (runPass budgets tree).result =
          .error (.notConverged directive.label directive.maximum) := by
  induction budgets generalizing tree with
  | nil =>
      refine .inl ⟨⟨tree, [], false⟩, rfl, rfl, fun i => rfl, ?_, ?_⟩
      · intro i entry h
        cases h
      · intro _ directive hmem
        cases hmem
  | cons head rest ih =>
      obtain ⟨directive, budget⟩ := head
      rw [runPass_cons]
      by_cases hbroke : directive.changes tree = true ∧ budget = 0
      · obtain ⟨hchanges, rfl⟩ := hbroke
        exact .inr ⟨0, directive, rfl, hchanges, by rw [hchanges]; rfl⟩
      · have hcond : (directive.changes tree && budget == 0) = false := by
          simpa using hbroke
        have hbudget : (directive.changes tree).toNat ≤ budget := by
          cases hchanges : directive.changes tree with
          | false => exact Nat.zero_le _
          | true => exact Nat.one_le_iff_ne_zero.mpr fun h => hbroke ⟨hchanges, h⟩
        rw [hcond]
        rcases ih (directive.rewrite tree) with ⟨pass, hpass, hpaid⟩ | ⟨i, other, hi, hat, herror⟩
        · exact .inl ⟨_, by rw [hpass]; rfl, hpaid.cons hbudget⟩
        · exact .inr ⟨i + 1, other, hi, hat, by rw [herror]; rfl⟩

/-! ## Runs -/

/-- A run of passes: how many there are, and what comes of them. -/
inductive Passes : Budgets → Tree → Nat → Except Fault Tree → Prop where
  | fails {budgets : Budgets} {tree : Tree} {fault : Fault}
      (h : (runPass budgets tree).result = .error fault) : Passes budgets tree 1 (.error fault)
  | settles {budgets : Budgets} {tree : Tree} {pass : Pass}
      (h : (runPass budgets tree).result = .ok pass) (hchanged : pass.changed = false) :
      Passes budgets tree 1 (.ok pass.tree)
  | goesOn {budgets : Budgets} {tree : Tree} {pass : Pass} {count : Nat}
      {outcome : Except Fault Tree} (h : (runPass budgets tree).result = .ok pass)
      (hchanged : pass.changed = true) (hrest : Passes pass.budgets pass.tree count outcome) :
      Passes budgets tree (count + 1) outcome

/-- Every run comes to an end, and it counts its passes. -/
theorem run_passes (budgets : Budgets) (before : Nat) (tree : Tree) :
    ∃ count outcome, Passes budgets tree count outcome ∧
      (run budgets before tree).result =
        outcome.map fun expanded => (expanded, before + count) := by
  fun_induction run budgets before tree with
  | case1 budgets before tree fault h => exact ⟨1, .error fault, .fails h, rfl⟩
  | case2 budgets before tree pass h hchanged rest ih =>
      obtain ⟨count, outcome, hpasses, hresult⟩ := ih
      refine ⟨count + 1, outcome, .goesOn h hchanged hpasses, ?_⟩
      rw [hresult, Nat.add_right_comm, Nat.add_assoc]
  | case3 budgets before tree pass h hchanged =>
      exact ⟨1, .ok pass.tree, .settles h (Bool.eq_false_iff.mpr hchanged), rfl⟩

section Passes

variable {budgets : Budgets} {tree : Tree} {count : Nat} {outcome : Except Fault Tree}

/-- Each pass but the last uses some of the budgets up. -/
theorem Passes.count_le (h : Passes budgets tree count outcome) : count ≤ 1 + budgets.left := by
  induction h with
  | fails | settles => exact Nat.le_add_right 1 _
  | goesOn h hchanged hrest ih =>
      have hless := (runPass_left h).2 hchanged
      omega

theorem paid_of_runPass {pass : Pass} (h : (runPass budgets tree).result = .ok pass) :
    Paid budgets tree pass := by
  rcases runPass_cases budgets tree with ⟨found, hfound, hpaid⟩ | ⟨_, _, _, _, herror⟩
  · cases h.symm.trans hfound
    exact hpaid
  · cases h.symm.trans herror

theorem Paid.directives_eq {pass : Pass} (h : Paid budgets tree pass) :
    pass.budgets.directives = budgets.directives := by
  apply List.ext_getElem?
  intro i
  rw [Budgets.directives, List.getElem?_map, h.budgets_eq, Option.map_map, Budgets.directives,
    List.getElem?_map]
  rfl

/-- A run that succeeds follows the passes without budgets up to a settled tree, and no directive
would ever change the tree in more passes than its budget. -/
theorem Passes.of_ok {expanded : Tree} (h : Passes budgets tree count (.ok expanded)) :
    expanded = (sweep budgets.directives)^[count] tree ∧ Settled budgets.directives expanded ∧
      ∀ i entry, budgets[i]? = some entry →
        ∀ more, changingPasses budgets.directives i more tree ≤ entry.2 := by
  generalize houtcome : Except.ok expanded = outcome at h
  induction h with
  | fails => cases houtcome
  | @settles budgets tree pass h hchanged =>
      cases houtcome
      have hpaid := paid_of_runPass h
      have hsettled := hpaid.settled hchanged
      refine ⟨hpaid.tree_eq, ?_, fun i entry _ more => ?_⟩
      · rwa [hpaid.tree_eq, hsettled.sweep_eq]
      · rw [hsettled.changingPasses_eq]
        exact Nat.zero_le _
  | @goesOn budgets tree pass count outcome h hchanged hrest ih =>
      have hpaid := paid_of_runPass h
      obtain ⟨hexpanded, hsettled, hbudgets⟩ := ih houtcome
      rw [hpaid.directives_eq, hpaid.tree_eq] at hexpanded
      rw [hpaid.directives_eq] at hsettled
      refine ⟨hexpanded, hsettled, fun i entry hentry more => ?_⟩
      cases more with
      | zero => exact Nat.zero_le _
      | succ more =>
          have hpaidEntry := hpaid.budgets_eq i
          rw [hentry, Option.map_some] at hpaidEntry
          have hleft := hbudgets i _ hpaidEntry more
          have haffordable := hpaid.affordable i entry hentry
          rw [hpaid.directives_eq, hpaid.tree_eq] at hleft
          rw [changingPasses]
          omega

/-- A run that fails names a directive that changes the tree in more passes than its budget. -/
theorem Passes.of_error {fault : Fault} (h : Passes budgets tree count (.error fault)) :
    ∃ i directive budget, budgets[i]? = some (directive, budget) ∧
      (∃ more, budget < changingPasses budgets.directives i more tree) ∧
      fault = .notConverged directive.label directive.maximum := by
  generalize houtcome : Except.error fault = outcome at h
  induction h with
  | settles => cases houtcome
  | @fails budgets tree cause h =>
      cases houtcome
      rcases runPass_cases budgets tree with ⟨_, hok, _⟩ | ⟨i, directive, hi, hat, herror⟩
      · cases h.symm.trans hok
      · cases h.symm.trans herror
        refine ⟨i, directive, 0, hi, ⟨1, ?_⟩, rfl⟩
        rw [changingPasses, hat]
        exact Nat.zero_lt_one
  | @goesOn budgets tree pass count outcome h hchanged hrest ih =>
      have hpaid := paid_of_runPass h
      obtain ⟨i, directive, left, hi, ⟨more, hmore⟩, hfault⟩ := ih houtcome
      rw [hpaid.budgets_eq] at hi
      obtain ⟨⟨payer, budget⟩, hentry, heq⟩ := Option.map_eq_some_iff.mp hi
      obtain ⟨rfl, rfl⟩ := Prod.mk.inj heq
      rw [hpaid.directives_eq, hpaid.tree_eq] at hmore
      refine ⟨i, payer, budget, hentry, ⟨more + 1, ?_⟩, hfault⟩
      rw [changingPasses]
      omega

theorem Passes.unique {others : Nat} {result : Except Fault Tree}
    (h : Passes budgets tree count outcome) (hother : Passes budgets tree others result) :
    count = others ∧ outcome = result := by
  induction h generalizing others result with
  | fails h =>
      cases hother with
      | fails h' =>
          cases h.symm.trans h'
          exact ⟨rfl, rfl⟩
      | settles h' | goesOn h' => cases h.symm.trans h'
  | settles h hchanged =>
      cases hother with
      | fails h' => cases h.symm.trans h'
      | settles h' =>
          cases h.symm.trans h'
          exact ⟨rfl, rfl⟩
      | goesOn h' hchanged' =>
          cases h.symm.trans h'
          rw [hchanged] at hchanged'
          cases hchanged'
  | goesOn h hchanged hrest ih =>
      cases hother with
      | fails h' => cases h.symm.trans h'
      | settles h' hchanged' =>
          cases h.symm.trans h'
          rw [hchanged] at hchanged'
          cases hchanged'
      | goesOn h' _ hrest' =>
          cases h.symm.trans h'
          obtain ⟨rfl, rfl⟩ := ih hrest'
          exact ⟨rfl, rfl⟩

end Passes

end LayeredConfig.Expansion
