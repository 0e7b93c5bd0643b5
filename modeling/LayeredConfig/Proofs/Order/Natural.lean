import LayeredConfig.Order.Natural

/-! # Natural order by runs

Names are compared by their maximal runs, position by position. The value of a run is what a reader
looks at first, but its spelling is looked at before the next position is: a zero in front of a
number outweighs everything behind that number. -/

namespace LayeredConfig.Order

/-! ## Maximal runs -/

/-- A text cut into runs: none is empty, all characters of a run are of its kind, and the next run
is of the other kind. -/
inductive MaximalRuns : List Char → List Run → Prop where
  | nil : MaximalRuns [] []
  | cons {run : Run} {rest : List Char} {others : List Run} (hne : run.text ≠ [])
      (hkind : ∀ c ∈ run.text, Text.isDecimalDigit c = run.isNumber)
      (hnext : ∀ next ∈ others.head?, next.isNumber ≠ run.isNumber)
      (hrest : MaximalRuns rest others) : MaximalRuns (run.text ++ rest) (run :: others)

/-- A character in front of a text prolongs its first run, or is a run of its own. -/
theorem runs_cons (c : Char) (text : List Char) :
    runs (c :: text) =
      match runs text with
      | [] => [⟨Text.isDecimalDigit c, [c]⟩]
      | run :: others =>
        if run.isNumber = Text.isDecimalDigit c then ⟨Text.isDecimalDigit c, c :: run.text⟩ :: others
        else ⟨Text.isDecimalDigit c, [c]⟩ :: run :: others := by
  rw [runs]
  cases runs text <;> rfl

theorem runs_append {kind : Bool} {text rest : List Char} (hne : text ≠ [])
    (hkind : ∀ c ∈ text, Text.isDecimalDigit c = kind)
    (hnext : ∀ next ∈ (runs rest).head?, next.isNumber ≠ kind) :
    runs (text ++ rest) = ⟨kind, text⟩ :: runs rest := by
  induction text with
  | nil => exact (hne rfl).elim
  | cons c text ih =>
      have hc : Text.isDecimalDigit c = kind := hkind c List.mem_cons_self
      rw [List.cons_append, runs_cons, hc]
      cases text with
      | nil =>
          rw [List.nil_append]
          cases hruns : runs rest with
          | nil => rfl
          | cons next others =>
              have hother : next.isNumber ≠ kind := hnext next (by rw [hruns]; rfl)
              simp only [hother, if_false]
      | cons d text =>
          have hothers := ih (List.cons_ne_nil d text) fun c hc => hkind c (List.mem_cons_of_mem _ hc)
          simp only [hothers, if_true]

theorem maximalRuns_runs (text : List Char) : MaximalRuns text (runs text) := by
  induction text with
  | nil => exact .nil
  | cons c text ih =>
      rw [runs_cons]
      have halone : ∀ {others : List Run}, MaximalRuns text others →
          (∀ next ∈ others.head?, next.isNumber ≠ Text.isDecimalDigit c) →
          MaximalRuns (c :: text) (⟨Text.isDecimalDigit c, [c]⟩ :: others) := by
        intro others hothers hnext
        have hkind : ∀ d ∈ [c], Text.isDecimalDigit d = Text.isDecimalDigit c := by
          intro d hd
          rw [List.mem_singleton.mp hd]
        exact @MaximalRuns.cons ⟨_, [c]⟩ text others (List.cons_ne_nil c []) hkind hnext hothers
      cases hruns : runs text with
      | nil =>
          rw [hruns] at ih
          exact halone ih fun next hnext => by cases hnext
      | cons run others =>
          rw [hruns] at ih
          dsimp only
          split
          · next hsame =>
            cases ih with
            | @cons _ rest _ hne hkind hnext hrest =>
                rw [hsame] at hkind hnext
                have hlonger : ∀ d ∈ c :: run.text,
                    Text.isDecimalDigit d = Text.isDecimalDigit c := by
                  intro d hd
                  rcases List.mem_cons.mp hd with rfl | hd
                  · rfl
                  · exact hkind d hd
                exact @MaximalRuns.cons ⟨_, c :: run.text⟩ rest others (List.cons_ne_nil c _) hlonger
                  hnext hrest
          · next hother =>
            refine halone ih fun next hmem => ?_
            cases hmem
            exact hother

/-- There is one way to cut a text into maximal runs. -/
theorem maximalRuns_iff {text : List Char} {cut : List Run} :
    MaximalRuns text cut ↔ runs text = cut := by
  constructor
  · intro h
    induction h with
    | nil => rfl
    | cons hne hkind hnext hrest ih =>
        rw [runs_append hne hkind (by rwa [ih]), ih]
  · rintro rfl
    exact maximalRuns_runs text

theorem MaximalRuns.flatMap_text {text : List Char} {cut : List Run} (h : MaximalRuns text cut) :
    cut.flatMap Run.text = text := by
  induction h with
  | nil => rfl
  | cons hne hkind hnext hrest ih => rw [List.flatMap_cons, ih]

/-! ## The order of runs -/

/-- Numbers before other runs, numbers by value and other runs by text. Leading zeros do not
count. -/
def Run.compareValue (a b : Run) : Ordering :=
  match a.isNumber, b.isNumber with
  | true, false => .lt
  | false, true => .gt
  | true, true => Ord.compare (Text.digitsValue a.text) (Text.digitsValue b.text)
  | false, false => compareText a.text b.text

/-- The spelling of a run decides where its value does not. -/
theorem Run.compare_eq_then (a b : Run) :
    a.compare b = (a.compareValue b).then (compareText a.text b.text) := by
  obtain ⟨kind, text⟩ := a
  obtain ⟨kind', text'⟩ := b
  cases kind <;> cases kind' <;> simp only [Run.compare, Run.compareValue, Ordering.then]
  cases compareText text text' <;> rfl

theorem compareRuns_eq_compareLex (as bs : List Run) :
    compareRuns as bs = List.compareLex Run.compare as bs := by
  induction as generalizing bs with
  | nil => cases bs <;> rfl
  | cons a as ih =>
      cases bs with
      | nil => rfl
      | cons b bs => rw [compareRuns, ih, List.compareLex_cons_cons]

/-- What a number is compared by; other runs are all alike in it. -/
def Run.number (run : Run) : Nat := if run.isNumber then Text.digitsValue run.text else 0

theorem Run.compare_eq_compareLex :
    Run.compare = compareLex (compareOn fun run : Run => !run.isNumber)
      (compareLex (compareOn Run.number) (compareOn fun run : Run => String.ofList run.text)) := by
  funext a b
  obtain ⟨kind, text⟩ := a
  obtain ⟨kind', text'⟩ := b
  cases kind <;> cases kind' <;> rfl

instance : Std.TransCmp Run.compare := by
  rw [Run.compare_eq_compareLex]
  infer_instance

instance : Std.LawfulEqCmp Run.compare where
  compare_self {a} := Std.ReflCmp.compare_self
  eq_of_compare {a b} h := by
    simp only [Run.compare_eq_compareLex, compareLex_eq_eq, compareOn,
      Std.LawfulEqCmp.compare_eq_iff_eq] at h
    obtain ⟨hkind, _, htext⟩ := h
    obtain ⟨kind, text⟩ := a
    obtain ⟨kind', text'⟩ := b
    cases Bool.not_inj hkind
    cases String.ofList_injective htext
    rfl

/-! ## The order of names -/

section Names

variable {a b : String} {as bs : List Run}

/-- Names with the same runs are the same. -/
theorem MaximalRuns.name_eq (ha : MaximalRuns a.toList as) (hb : MaximalRuns b.toList bs)
    (h : as = bs) : a = b := by
  apply String.toList_injective
  rw [← ha.flatMap_text, ← hb.flatMap_text, h]

/-- Runs that do not differ leave nothing for the full names to decide. -/
theorem natural_eq_compareLex (ha : MaximalRuns a.toList as) (hb : MaximalRuns b.toList bs) :
    natural a b = List.compareLex Run.compare as bs := by
  rw [natural, maximalRuns_iff.mp ha, maximalRuns_iff.mp hb, compareRuns_eq_compareLex]
  cases hruns : List.compareLex Run.compare as bs with
  | lt => rfl
  | gt => rfl
  | eq =>
      rw [ha.name_eq hb (Std.LawfulEqCmp.eq_of_compare hruns)]
      exact Std.ReflOrd.compare_self

theorem natural_eq_runs :
    natural = fun a b => List.compareLex Run.compare (runs a.toList) (runs b.toList) := by
  funext a b
  exact natural_eq_compareLex (maximalRuns_runs a.toList) (maximalRuns_runs b.toList)

instance : Std.TransCmp natural where
  eq_swap {a b} := by
    simp only [natural_eq_runs]
    exact Std.OrientedCmp.eq_swap
  isLE_trans {a b c} hab hbc := by
    simp only [natural_eq_runs] at hab hbc ⊢
    exact Std.TransCmp.isLE_trans hab hbc

/-- Natural order tells all names apart. -/
instance : Std.LawfulEqCmp natural where
  compare_self {a} := Std.ReflCmp.compare_self
  eq_of_compare {a b} h := by
    simp only [natural_eq_runs] at h
    exact (maximalRuns_runs a.toList).name_eq (maximalRuns_runs b.toList)
      (Std.LawfulEqCmp.eq_of_compare h)

/-- Up to the first position at which they differ in value, two cuts have the same runs. -/
def SpelledAlike : List Run → List Run → Prop
  | a :: as, b :: bs => a.compareValue b = .eq → a = b ∧ SpelledAlike as bs
  | _, _ => True

instance decidableSpelledAlike : (as bs : List Run) → Decidable (SpelledAlike as bs)
  | a :: as, b :: bs =>
    have := decidableSpelledAlike as bs
    inferInstanceAs (Decidable (a.compareValue b = .eq → a = b ∧ SpelledAlike as bs))
  | [], _ | _ :: _, [] => isTrue trivial

theorem SpelledAlike.compareLex_eq (h : SpelledAlike as bs) :
    List.compareLex Run.compare as bs = List.compareLex Run.compareValue as bs := by
  induction as generalizing bs with
  | nil => cases bs <;> rfl
  | cons a as ih =>
      cases bs with
      | nil => rfl
      | cons b bs =>
          rw [List.compareLex_cons_cons, List.compareLex_cons_cons, Run.compare_eq_then]
          cases hvalue : a.compareValue b with
          | lt => rfl
          | gt => rfl
          | eq =>
              obtain ⟨rfl, halike⟩ := h hvalue
              rw [ih halike, compareText, Std.ReflOrd.compare_self]
              rfl

theorem SpelledAlike.eq_of_compareLex (h : SpelledAlike as bs)
    (hvalues : List.compareLex Run.compareValue as bs = .eq) : as = bs := by
  rw [← h.compareLex_eq] at hvalues
  exact Std.LawfulEqCmp.eq_of_compare hvalues

/-- Natural order goes by runs. The first position at which two names differ decides, be it in the
value of their runs or in their spelling alone. So values decide, and after them the full names, as
long as no two runs of one value are spelled differently before the values differ. -/
theorem natural_eq_by_value (ha : MaximalRuns a.toList as) (hb : MaximalRuns b.toList bs) :
    natural a b =
        List.compareLex (fun x y => (x.compareValue y).then (compareText x.text y.text)) as bs ∧
      (SpelledAlike as bs →
        natural a b = (List.compareLex Run.compareValue as bs).then (compare a b)) := by
  have hruns : Run.compare = fun x y => (x.compareValue y).then (compareText x.text y.text) := by
    funext x y
    exact x.compare_eq_then y
  refine ⟨by rw [natural_eq_compareLex ha hb, hruns], fun halike => ?_⟩
  rw [natural_eq_compareLex ha hb, halike.compareLex_eq]
  cases hvalues : List.compareLex Run.compareValue as bs with
  | lt => rfl
  | gt => rfl
  | eq =>
      rw [ha.name_eq hb (halike.eq_of_compareLex hvalues)]
      exact Std.ReflOrd.compare_self.symm

end Names

/-- The second of two numbered names, and the tenth. -/
theorem natural_eq_by_value_tenth :
    let second : List Run := [⟨true, ['0', '7']⟩, ⟨false, ['a']⟩, ⟨true, ['2']⟩]
    let tenth : List Run := [⟨true, ['0', '7']⟩, ⟨false, ['a']⟩, ⟨true, ['1', '0']⟩]
    MaximalRuns "07a2".toList second ∧ MaximalRuns "07a10".toList tenth ∧
      SpelledAlike second tenth ∧ natural "07a2" "07a10" = .lt := by
  intro second tenth
  have hsecond : MaximalRuns "07a2".toList second := maximalRuns_iff.mpr (by decide)
  have htenth : MaximalRuns "07a10".toList tenth := maximalRuns_iff.mpr (by decide)
  have halike : SpelledAlike second tenth := by decide
  have hvalues : List.compareLex Run.compareValue second tenth = .lt := by decide
  refine ⟨hsecond, htenth, halike, ?_⟩
  rw [(natural_eq_by_value hsecond htenth).2 halike, hvalues]
  rfl

/-- A leading zero outweighs what follows the number: by value the first name stands behind the
second one, but it is put in front of it. -/
theorem natural_leading_zero :
    let zero : List Run := [⟨true, ['0', '1']⟩, ⟨false, ['b']⟩]
    let plain : List Run := [⟨true, ['1']⟩, ⟨false, ['a']⟩]
    MaximalRuns "01b".toList zero ∧ MaximalRuns "1a".toList plain ∧
      List.compareLex Run.compareValue zero plain = .gt ∧ natural "01b" "1a" = .lt := by
  intro zero plain
  refine ⟨maximalRuns_iff.mpr (by decide), maximalRuns_iff.mpr (by decide), by decide, by decide⟩

end LayeredConfig.Order
