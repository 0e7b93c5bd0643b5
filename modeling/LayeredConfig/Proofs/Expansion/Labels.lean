import LayeredConfig.Proofs.Expansion.Leaves
import Mathlib.Data.List.Destutter

/-! # Labels of directives

A leaf is labelled whenever a directive exchanges something in it, unless its last origin is that
label already. So its labels are those of its history without immediate repetitions, and a directive
that comes back after another one is recorded once more. -/

namespace LayeredConfig

/-! ## Lists without immediate repetitions -/

section Destutter

variable {α : Type} {word list : List α}

theorem exists_between_of_sublist {a : α} (hlist : list.IsChain (· ≠ ·))
    (h : [a, a].Sublist list) : ∃ other, other ≠ a ∧ [a, other, a].Sublist list := by
  induction list with
  | nil => cases h
  | cons first rest ih =>
      cases h with
      | cons _ h =>
          obtain ⟨other, hne, hother⟩ := ih hlist.tail h
          exact ⟨other, hne, hother.cons _⟩
      | cons_cons _ h =>
          cases rest with
          | nil => cases h
          | cons other rest =>
              have hne := (List.isChain_cons_cons.mp hlist).1
              refine ⟨other, hne.symm, .cons_cons _ (.cons_cons _ ?_)⟩
              cases h with
              | cons _ h => exact h
              | cons_cons _ h => exact (hne rfl).elim

variable [DecidableEq α]

theorem sublist_destutter' {last : α} (hword : word.IsChain (· ≠ ·))
    (h : word.Sublist (last :: list)) : word.Sublist (list.destutter' (· ≠ ·) last) := by
  induction list generalizing word last with
  | nil => exact h
  | cons next rest ih =>
      by_cases hne : last ≠ next
      · rw [List.destutter'_cons_pos _ hne]
        cases h with
        | cons _ h => exact (ih hword h).cons _
        | cons_cons _ h => exact (ih hword.tail h).cons_cons _
      · obtain rfl := not_ne_iff.mp hne
        rw [List.destutter'_cons_neg _ hne]
        -- Of the two equal elements the word uses one at most.
        cases h with
        | cons _ h => exact ih hword h
        | cons_cons _ h =>
            cases h with
            | cons _ h => exact ih hword (h.cons_cons _)
            | cons_cons _ h => exact (List.isChain_cons_cons.mp hword).1.elim rfl

/-- Immediate repetitions are not needed to find a word that has none. -/
theorem sublist_destutter_iff (hword : word.IsChain (· ≠ ·)) :
    word.Sublist (list.destutter (· ≠ ·)) ↔ word.Sublist list := by
  refine ⟨fun h => h.trans (List.destutter_sublist _ _), fun h => ?_⟩
  cases list with
  | nil => exact h
  | cons last rest => exact sublist_destutter' hword h

theorem mem_destutter_iff {a : α} : a ∈ list.destutter (· ≠ ·) ↔ a ∈ list := by
  rw [← List.singleton_sublist, sublist_destutter_iff (List.isChain_singleton a),
    List.singleton_sublist]

/-- An element is left once at most if no other one stands between two of its occurrences. -/
theorem count_destutter_le_one_iff {a : α} :
    (list.destutter (· ≠ ·)).count a ≤ 1 ↔ ∀ other, other ≠ a → ¬ [a, other, a].Sublist list := by
  have htwice : 1 < (list.destutter (· ≠ ·)).count a ↔ [a, a].Sublist (list.destutter (· ≠ ·)) :=
    List.replicate_sublist_iff.symm
  rw [← Nat.not_lt, htwice]
  constructor
  · intro h other hne hother
    have hchain : [a, other, a].IsChain (· ≠ ·) := by simp [hne, hne.symm]
    exact h (.trans (by simp) ((sublist_destutter_iff hchain).mpr hother))
  · intro h hboth
    obtain ⟨other, hne, hother⟩ := exists_between_of_sublist (List.isChain_destutter _ _) hboth
    exact h other hne (hother.trans (List.destutter_sublist _ _))

end Destutter

namespace Expansion

/-! ## Labels of a leaf -/

section Labels

variable {directives : List Directive} {origins : List Origin}

theorem annotate_eq {directive : Directive} (h : directive.origin ≠ "") :
    directive.annotate origins =
      if origins.getLast? = some directive.marker then origins
      else origins ++ [directive.marker] := by
  have hlabel : directive.origin.isEmpty = false := by simpa using h
  change (if directive.origin.isEmpty || origins.getLast? == some directive.marker then origins
    else origins ++ [directive.marker]) = _
  simp only [hlabel, Bool.false_or, beq_iff_eq]

theorem annotated_behind (h : ∀ directive ∈ directives, directive.origin ≠ "") (last : Origin) :
    annotated directives (origins ++ [last]) =
      origins ++ (directives.map Directive.marker).destutter' (· ≠ ·) last := by
  induction directives generalizing origins last with
  | nil => rfl
  | cons directive rest ih =>
      obtain ⟨hlabel, hrest⟩ := List.forall_mem_cons.mp h
      change annotated rest (directive.annotate (origins ++ [last])) = _
      rw [annotate_eq hlabel, List.getLast?_concat, List.map_cons]
      by_cases hlast : last = directive.marker
      · rw [if_pos (congrArg some hlast), ih hrest,
          List.destutter'_cons_neg _ (not_not_intro hlast)]
      · rw [if_neg fun hsome => hlast (Option.some.inj hsome), ih hrest,
          List.destutter'_cons_pos _ hlast, List.append_assoc, List.singleton_append]

/-- Behind origins without labels stand those of the directives, immediate repetitions left out. -/
theorem annotated_eq (h : ∀ directive ∈ directives, directive.origin ≠ "")
    (horigins : ∀ directive ∈ directives, directive.marker ∉ origins) :
    annotated directives origins =
      origins ++ (directives.map Directive.marker).destutter (· ≠ ·) := by
  cases directives with
  | nil => exact (List.append_nil origins).symm
  | cons directive rest =>
      obtain ⟨hlabel, hrest⟩ := List.forall_mem_cons.mp h
      have hlast : origins.getLast? ≠ some directive.marker := fun hlast =>
        horigins directive List.mem_cons_self (List.mem_of_getLast? hlast)
      change annotated rest (directive.annotate origins) = _
      rw [annotate_eq hlabel, if_neg hlast, annotated_behind hrest]
      rfl

end Labels

/-- The label of a directive is among the origins if the directive is in the history; it is there
only once if no other one stands in the history between two exchanges of it. -/
def LabelledBy (directives history : List Directive) (origins : List Origin) : Prop :=
  ∀ directive ∈ directives, (directive.marker ∈ origins ↔ directive ∈ history) ∧
    (origins.count directive.marker ≤ 1 ↔
      ∀ other, other ≠ directive → ¬ [directive, other, directive].Sublist history)

section Distinct

variable {directives history : List Directive} (hnodup : (directives.map (·.origin)).Nodup)
  (hhistory : history ⊆ directives)
include hnodup hhistory

theorem eq_of_marker_eq {directive other : Directive} (hdirective : directive ∈ directives)
    (hother : other ∈ history) (h : other.marker = directive.marker) : other = directive :=
  List.inj_on_of_nodup_map hnodup (hhistory hother) hdirective (congrArg Origin.source h)

theorem marker_mem_iff {directive : Directive} (hdirective : directive ∈ directives) :
    directive.marker ∈ history.map Directive.marker ↔ directive ∈ history := by
  rw [List.mem_map]
  constructor
  · rintro ⟨other, hother, hmarker⟩
    rwa [← eq_of_marker_eq hnodup hhistory hdirective hother hmarker]
  · exact fun h => ⟨directive, h, rfl⟩

theorem marker_between_iff {directive : Directive} (hdirective : directive ∈ directives) :
    (∀ origin, origin ≠ directive.marker →
        ¬ [directive.marker, origin, directive.marker].Sublist (history.map Directive.marker)) ↔
      ∀ other, other ≠ directive → ¬ [directive, other, directive].Sublist history := by
  constructor
  · intro h other hne hother
    refine h other.marker (fun hmarker => hne ?_) (hother.map Directive.marker)
    exact eq_of_marker_eq hnodup hhistory hdirective (hother.subset (by simp)) hmarker
  · intro h origin hne horigin
    obtain ⟨word, hword, hmap⟩ := List.sublist_map_iff.mp horigin
    obtain ⟨first, other, last, rfl⟩ : ∃ first other last, word = [first, other, last] :=
      List.length_eq_three.mp (by simpa using (congrArg List.length hmap).symm)
    simp only [List.map_cons, List.map_nil, List.cons.injEq, and_true] at hmap
    obtain ⟨hfirst, rfl, hlast⟩ := hmap
    have hsame {found : Directive} (hfound : found ∈ [first, other, last])
        (hmarker : directive.marker = found.marker) : found = directive :=
      eq_of_marker_eq hnodup hhistory hdirective (hword.subset hfound) hmarker.symm
    obtain rfl := hsame (by simp) hfirst
    obtain rfl := hsame (by simp) hlast
    exact h other (fun heq => hne (heq ▸ rfl)) hword

theorem labelledBy_annotated (hlabels : ∀ directive ∈ directives, directive.origin ≠ "")
    {origins : List Origin} (horigins : ∀ directive ∈ directives, directive.marker ∉ origins) :
    LabelledBy directives history (annotated history origins) := by
  intro directive hdirective
  have hnone := horigins directive hdirective
  rw [annotated_eq (fun other hother => hlabels other (hhistory hother))
    (fun other hother => horigins other (hhistory hother)), List.mem_append, mem_destutter_iff,
    List.count_append, List.count_eq_zero_of_not_mem hnone, Nat.zero_add,
    count_destutter_le_one_iff]
  exact ⟨(or_iff_right hnone).trans (marker_mem_iff hnodup hhistory hdirective),
    marker_between_iff hnodup hhistory hdirective⟩

end Distinct

/-! ## Labels of an expanded tree -/

/-- Labels tell which directives have exchanged something. If directives have distinct labels, none
of which is an origin of a leaf before, a label is an origin of the expanded leaf exactly if its
directive has exchanged something there. It is so only once exactly if no other directive exchanges
something in between. -/
theorem expand_labelledBy {directives : List Directive} {tree expanded : Tree}
    (hnodup : (directives.map (·.origin)).Nodup)
    (hlabels : ∀ directive ∈ directives, directive.origin ≠ "")
    (h : (tree.expand directives).result = .ok expanded) :
    ∃ count, Passes (.full directives) tree count (.ok expanded) ∧
      tree.Leafwise (fun value mark _ otherMark =>
        (∀ directive ∈ directives, directive.marker ∉ mark.origins) →
          LabelledBy directives (history directives count (.leaf value mark)) otherMark.origins)
        expanded := by
  refine exists_leafwise h fun count value mark other otherMark hleaf horigins => ?_
  have hlabelled : LabelledBy directives (history directives count (.leaf value mark))
      (annotated (history directives count (.leaf value mark)) mark.origins) :=
    labelledBy_annotated hnodup (fun _ => mem_of_mem_history) hlabels horigins
  rcases leaf_iterate hleaf with ⟨_, hnone, _, rfl⟩ | ⟨text, rfl, _, rfl⟩
  · rw [hnone] at hlabelled ⊢
    exact hlabelled
  · exact hlabelled

/-- A password is exchanged twice by the environment, then by the vault; both are recorded once. -/
theorem expand_labelledBy_password :
    let environment : Directive :=
      { lookup := fun name =>
          if name = "password" then ("$(secret)", true)
          else if name = "secret" then ("%(db)", true) else ("", false)
        origin := "env", opening := ['$', '('], closing := [')'], maximum := 2
        opening_ne := by simp, closing_ne := by simp, maximum_pos := by decide }
    let vault : Directive :=
      { lookup := fun name => ("s3cret", name == "db"), origin := "vault"
        opening := ['%', '('], closing := [')'], maximum := 1
        opening_ne := by simp, closing_ne := by simp, maximum_pos := by decide }
    let password (text : String) (labels : List Origin) : Tree :=
      .map [("password", .leaf (some (.text text)) { origins := ⟨"app.yaml", 1, 11⟩ :: labels })]
        { origins := [⟨"app.yaml", 1, 1⟩] }
    let tree := password "$(password)" []
    let expanded := password "s3cret" [environment.marker, vault.marker]
    ([environment, vault].map (·.origin)).Nodup ∧
      (∀ directive ∈ [environment, vault], directive.origin ≠ "") ∧
      (tree.expand [environment, vault]).result = .ok expanded ∧
      ∃ count, Passes (.full [environment, vault]) tree count (.ok expanded) ∧
        tree.Leafwise (fun value mark _ otherMark =>
          (∀ directive ∈ [environment, vault], directive.marker ∉ mark.origins) →
            LabelledBy [environment, vault] (history [environment, vault] count (.leaf value mark))
              otherMark.origins)
          expanded := by
  intro environment vault password tree expanded
  have hnodup : ([environment, vault].map (·.origin)).Nodup := by simp [environment, vault]
  have hlabels : ∀ directive ∈ [environment, vault], directive.origin ≠ "" := by
    simp [environment, vault]
  let halfway := password "$(secret)" [environment.marker]
  have hfirst : (runPass (.full [environment, vault]) tree).result =
      .ok ⟨halfway, [(environment, 1), (vault, 1)], true⟩ := by cbv
  have hsecond : (runPass [(environment, 1), (vault, 1)] halfway).result =
      .ok ⟨expanded, [(environment, 0), (vault, 0)], true⟩ := by cbv
  have hthird : (runPass [(environment, 0), (vault, 0)] expanded).result =
      .ok ⟨expanded, [(environment, 0), (vault, 0)], false⟩ := by cbv
  have hexpand : (tree.expand [environment, vault]).result = .ok expanded :=
    expand_eq_iff.mpr ⟨3, .goesOn hfirst rfl (.goesOn hsecond rfl (.settles hthird rfl))⟩
  exact ⟨hnodup, hlabels, hexpand, expand_labelledBy hnodup hlabels hexpand⟩

/-- A directive that comes back after another one is recorded twice. -/
theorem expand_label_twice :
    let one : Directive :=
      { lookup := fun name =>
          if name = "a" then ("%(b)", true) else if name = "c" then ("x", true) else ("", false)
        origin := "one", opening := ['$', '('], closing := [')'], maximum := 2
        opening_ne := by simp, closing_ne := by simp, maximum_pos := by decide }
    let two : Directive :=
      { lookup := fun name => ("$(c)", name == "b"), origin := "two"
        opening := ['%', '('], closing := [')'], maximum := 1
        opening_ne := by simp, closing_ne := by simp, maximum_pos := by decide }
    let leaf (text : String) (origins : List Origin) : Tree := .leaf (some (.text text)) { origins }
    let labels := [one.marker, two.marker, one.marker]
    ([one, two].map (·.origin)).Nodup ∧ (∀ directive ∈ [one, two], directive.origin ≠ "") ∧
      ((leaf "$(a)" []).expand [one, two]).result = .ok (leaf "x" labels) ∧
      labels.count one.marker = 2 := by
  intro one two leaf labels
  have hfirst : (runPass (.full [one, two]) (leaf "$(a)" [])).result =
      .ok ⟨leaf "$(c)" [one.marker, two.marker], [(one, 1), (two, 0)], true⟩ := by cbv
  have hsecond : (runPass [(one, 1), (two, 0)] (leaf "$(c)" [one.marker, two.marker])).result =
      .ok ⟨leaf "x" labels, [(one, 0), (two, 0)], true⟩ := by cbv
  have hthird : (runPass [(one, 0), (two, 0)] (leaf "x" labels)).result =
      .ok ⟨leaf "x" labels, [(one, 0), (two, 0)], false⟩ := by cbv
  refine ⟨by simp [one, two], by simp [one, two], expand_eq_iff.mpr ⟨3, ?_⟩, by decide⟩
  exact .goesOn hfirst rfl (.goesOn hsecond rfl (.settles hthird rfl))

end Expansion

end LayeredConfig
