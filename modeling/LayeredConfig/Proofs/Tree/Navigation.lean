import LayeredConfig.Proofs.Outcomes
import LayeredConfig.Proofs.Tree.Layers

/-! # Navigation

The words for a path in messages do not matter to what a path leads to, so that navigation goes from
child to child. A path in parts is followed part by part, and a path that leads nowhere fails as its
first segment does that leads nowhere. -/

namespace LayeredConfig.Tree

variable {delimiter : String} {tree node : Tree}

theorem child_eq_ok {path segment : String} (h : tree.child path segment = .ok node)
    (other : String) : tree.child other segment = .ok node := by
  cases tree with
  | leaf value mark =>
      rw [child] at h
      split at h <;> cases h
  | map entries mark =>
      rw [child] at h ⊢
      cases hlookup : List.lookup segment entries with
      | none => simp [hlookup] at h
      | some found => simpa [hlookup] using h
  | array items mark =>
      rw [child] at h ⊢
      split at h
      · cases h
      · next hindex =>
        rw [if_neg hindex]
        cases hitem : items[Text.digitsValue segment.toList]? with
        | none => simp [hitem] at h
        | some found => simpa [hitem] using h

theorem fetchFrom_cons_eq_ok_iff {passed : List String} {segment : String} {rest : List String} :
    tree.fetchFrom delimiter passed (segment :: rest) = .ok node ↔
      ∃ next, tree.child segment segment = .ok next ∧
        next.fetchFrom delimiter (passed ++ [segment]) rest = .ok node := by
  rw [fetchFrom]
  cases hchild : tree.child (delimiter.intercalate (passed ++ [segment])) segment with
  | error fault =>
      constructor
      · intro h
        cases h
      · rintro ⟨next, hnext, _⟩
        cases hchild.symm.trans (child_eq_ok hnext _)
  | ok found =>
      constructor
      · exact fun h => ⟨found, child_eq_ok hchild segment, h⟩
      · rintro ⟨next, hnext, h⟩
        cases hchild.symm.trans (child_eq_ok hnext _)
        exact h

theorem fetchFrom_eq_ok {passed path : List String}
    (h : tree.fetchFrom delimiter passed path = .ok node) (others : List String) :
    tree.fetchFrom delimiter others path = .ok node := by
  induction path generalizing passed others tree with
  | nil => exact h
  | cons segment rest ih =>
      obtain ⟨next, hnext, h⟩ := fetchFrom_cons_eq_ok_iff.mp h
      exact fetchFrom_cons_eq_ok_iff.mpr ⟨next, hnext, ih h _⟩

/-- The node at a path is found from the child at the first segment. -/
theorem fetch_cons_eq_ok_iff {segment : String} {rest : List String} :
    tree.fetch delimiter (segment :: rest) = .ok node ↔
      ∃ next, tree.child segment segment = .ok next ∧ next.fetch delimiter rest = .ok node := by
  rw [fetch, fetchFrom_cons_eq_ok_iff]
  constructor <;> rintro ⟨next, hnext, h⟩ <;> exact ⟨next, hnext, fetchFrom_eq_ok h _⟩

/-! ## Paths in parts -/

theorem fetchFrom_append (passed path rest : List String) (tree : Tree) :
    tree.fetchFrom delimiter passed (path ++ rest) =
      (tree.fetchFrom delimiter passed path).bind
        (fetchFrom delimiter (passed ++ path) rest) := by
  induction path generalizing passed tree with
  | nil =>
      rw [List.append_nil]
      rfl
  | cons segment path ih =>
      rw [List.cons_append, fetchFrom, fetchFrom]
      cases tree.child (delimiter.intercalate (passed ++ [segment])) segment with
      | error fault => rfl
      | ok next =>
          refine (ih (passed ++ [segment]) next).trans ?_
          rw [List.append_assoc]
          rfl

/-- The words for a path do not matter to the class of a fault either. -/
theorem mapError_child (path other segment : String) (tree : Tree) :
    (tree.child path segment).mapError Fault.category =
      (tree.child other segment).mapError Fault.category := by
  cases tree with
  | leaf value mark =>
      rw [child, child]
      split <;> rfl
  | map entries mark =>
      rw [child, child]
      cases entries.lookup segment <;> rfl
  | array items mark =>
      rw [child, child]
      split
      · rfl
      · dsimp only
        split <;> rfl

theorem mapError_fetchFrom (passed others path : List String) (tree : Tree) :
    (tree.fetchFrom delimiter passed path).mapError Fault.category =
      (tree.fetchFrom delimiter others path).mapError Fault.category := by
  induction path generalizing passed others tree with
  | nil => rfl
  | cons segment rest ih =>
      rw [fetchFrom, fetchFrom]
      have hchild := mapError_child (delimiter.intercalate (passed ++ [segment]))
        (delimiter.intercalate (others ++ [segment])) segment tree
      cases hone : tree.child (delimiter.intercalate (passed ++ [segment])) segment with
      | error fault =>
          cases htwo : tree.child (delimiter.intercalate (others ++ [segment])) segment with
          | error fault' =>
              rw [hone, htwo] at hchild
              have hclass : fault.category = fault'.category := Except.error.inj hchild
              exact congrArg Except.error hclass
          | ok next => rw [hone, htwo] at hchild; cases hchild
      | ok next =>
          rw [child_eq_ok hone]
          exact ih _ _ next

/-- A path in two parts is followed part by part, and ends in the class of the first fault. -/
theorem mapError_fetch_append (delimiter : String) (path rest : List String) (tree : Tree) :
    (tree.fetch delimiter (path ++ rest)).mapError Fault.category =
      ((tree.fetch delimiter path).mapError Fault.category).bind fun between =>
        (between.fetch delimiter rest).mapError Fault.category := by
  rw [fetch, fetchFrom_append, fetch]
  cases tree.fetchFrom delimiter [] path with
  | error fault => rfl
  | ok between => exact mapError_fetchFrom _ _ rest between

theorem fetch_append_eq_ok_iff {path rest : List String} :
    tree.fetch delimiter (path ++ rest) = .ok node ↔
      ∃ between, tree.fetch delimiter path = .ok between ∧
        between.fetch delimiter rest = .ok node := by
  rw [fetch, fetchFrom_append]
  constructor
  · intro h
    obtain ⟨between, hbetween, h⟩ := exists_of_bind_eq_ok h
    exact ⟨between, hbetween, fetchFrom_eq_ok h []⟩
  · rintro ⟨between, hbetween, h⟩
    rw [← fetch, hbetween]
    exact fetchFrom_eq_ok h _

/-! ## Faults -/

theorem category_of_child_eq_error {path segment : String} {fault : Fault}
    (h : tree.child path segment = .error fault) :
    fault.category = .notFound ∨ fault.category = .typeMismatch := by
  cases tree with
  | leaf value mark =>
      rw [child] at h
      split at h <;> cases h
      · exact .inl rfl
      · exact .inr rfl
  | map entries mark =>
      rw [child] at h
      split at h <;> cases h
      exact .inl rfl
  | array items mark =>
      rw [child] at h
      split at h
      · cases h
        exact .inr rfl
      · dsimp only at h
        split at h <;> cases h
        exact .inl rfl

theorem exists_error_of_mapError_eq {α : Type} {first second : Except Fault α} {fault : Fault}
    (h : first.mapError Fault.category = second.mapError Fault.category)
    (hfirst : first = .error fault) :
    ∃ other, second = .error other ∧ fault.category = other.category := by
  subst hfirst
  cases second with
  | error other => exact ⟨other, rfl, Except.error.inj h⟩
  | ok value => cases h

/-- Along a path in two parts either part can fail, in its own class. -/
theorem exists_of_fetch_append_eq_error {path rest : List String} {fault : Fault}
    (h : tree.fetch delimiter (path ++ rest) = .error fault) :
    ∃ cause, fault.category = cause.category ∧
      (tree.fetch delimiter path = .error cause ∨
        ∃ between, tree.fetch delimiter path = .ok between ∧
          between.fetch delimiter rest = .error cause) := by
  have hparts := mapError_fetch_append delimiter path rest tree
  rw [h] at hparts
  cases hpath : tree.fetch delimiter path with
  | error cause =>
      rw [hpath] at hparts
      exact ⟨cause, Except.error.inj hparts, .inl rfl⟩
  | ok between =>
      rw [hpath] at hparts
      obtain ⟨cause, hcause, hclass⟩ := exists_error_of_mapError_eq hparts rfl
      exact ⟨cause, hclass, .inr ⟨between, rfl, hcause⟩⟩

/-- A path that leads nowhere breaks off at one segment, and its fault is of the class that this
segment fails with. -/
theorem exists_of_fetch_eq_error {path : List String} {fault : Fault}
    (h : tree.fetch delimiter path = .error fault) :
    ∃ before segment after between cause, path = before ++ segment :: after ∧
      tree.fetch delimiter before = .ok between ∧ between.child segment segment = .error cause ∧
      fault.category = cause.category := by
  induction path generalizing tree fault with
  | nil => cases h
  | cons segment rest ih =>
      rw [fetch, fetchFrom] at h
      cases hchild : tree.child (delimiter.intercalate ([] ++ [segment])) segment with
      | error cause =>
          rw [hchild] at h
          cases h
          obtain ⟨cause, hcause, hclass⟩ :=
            exists_error_of_mapError_eq (mapError_child _ segment segment tree) hchild
          exact ⟨[], segment, rest, tree, cause, rfl, rfl, hcause, hclass⟩
      | ok next =>
          rw [hchild] at h
          obtain ⟨fault', h, hclass⟩ :=
            exists_error_of_mapError_eq (mapError_fetchFrom _ [] rest next) h
          obtain ⟨before, last, after, between, cause, rfl, hbefore, hcause, hclass'⟩ := ih h
          exact ⟨segment :: before, last, after, between, cause, rfl,
            fetch_cons_eq_ok_iff.mpr ⟨next, child_eq_ok hchild segment, hbefore⟩, hcause,
            hclass.trans hclass'⟩

end LayeredConfig.Tree
