import LayeredConfig.Order.Natural

/-! # Sort keys

A sort key is a number, a text, or a row of keys, and a number is not compared with a text. The keys
of natural order are rows of rows that mix both, but behind members that tell the kinds of runs
apart, so that any two of them can be compared. -/

namespace LayeredConfig.Order

inductive SortKey
  | number (value : Nat)
  | text (value : String)
  | row (members : List SortKey)

namespace SortKey

mutual

/-- The order of two keys, or nothing if they cannot be compared. -/
def compare? : SortKey → SortKey → Option Ordering
  | number a, number b => some (compare a b)
  | text a, text b => some (compare a b)
  | row as, row bs => compareRows? as bs
  | _, _ => none

/-- The first members that are not equal decide, and a proper beginning stands first. -/
def compareRows? : List SortKey → List SortKey → Option Ordering
  | [], [] => some .eq
  | [], _ :: _ => some .lt
  | _ :: _, [] => some .gt
  | a :: as, b :: bs =>
    match compare? a b with
    | some .eq => compareRows? as bs
    | decided => decided

end

theorem compareRows?_cons {a b : SortKey} {as bs : List SortKey} {first rest : Ordering}
    (h : compare? a b = some first) (hrest : compareRows? as bs = some rest) :
    compareRows? (a :: as) (b :: bs) = some (first.then rest) := by
  rw [compareRows?, h]
  cases first with
  | eq => exact hrest
  | lt | gt => rfl

theorem compareRows?_number (n : Nat) (as bs : List SortKey) :
    compareRows? (number n :: as) (number n :: bs) = compareRows? as bs := by
  rw [compareRows?, compare?, Std.ReflOrd.compare_self]

theorem compareRows?_text (a b : String) :
    compareRows? [text a] [text b] = some (compare a b) := by
  rw [compareRows?_cons rfl rfl, Ordering.then_eq]

end SortKey

/-! ## Natural order -/

/-- A number is kept by its value and its spelling, and stands before every other run. -/
def Run.key (run : Run) : SortKey :=
  if run.isNumber then
    .row [.number 0, .number (Text.digitsValue run.text), .text (String.ofList run.text)]
  else .row [.number 1, .number 0, .text (String.ofList run.text)]

/-- The runs of a name, and behind them the name itself. -/
def naturalKey (name : String) : SortKey :=
  .row [.row ((runs name.toList).map Run.key), .text name]

theorem Run.compare?_key (a b : Run) : a.key.compare? b.key = some (a.compare b) := by
  obtain ⟨kind, text⟩ := a
  obtain ⟨kind', text'⟩ := b
  have htext := SortKey.compareRows?_text (String.ofList text) (String.ofList text')
  cases kind with
  | false =>
      cases kind' with
      | false =>
          change SortKey.compareRows? _ _ = _
          rw [SortKey.compareRows?_number, SortKey.compareRows?_number, htext]
          rfl
      | true => rfl
  | true =>
      cases kind' with
      | false => rfl
      | true =>
          change SortKey.compareRows? _ _ = _
          rw [SortKey.compareRows?_number, SortKey.compareRows?_cons rfl htext]
          rfl

theorem compareRows?_map_key (as bs : List Run) :
    SortKey.compareRows? (as.map Run.key) (bs.map Run.key) = some (compareRuns as bs) := by
  induction as generalizing bs with
  | nil => cases bs <;> rfl
  | cons a as ih =>
      cases bs with
      | nil => rfl
      | cons b bs => exact SortKey.compareRows?_cons (a.compare?_key b) (ih bs)

/-- Any two keys can be compared, and natural order is their order. -/
theorem compare?_naturalKey (a b : String) :
    (naturalKey a).compare? (naturalKey b) = some (natural a b) := by
  exact SortKey.compareRows?_cons (compareRows?_map_key _ _) (SortKey.compareRows?_text a b)

/-! ## Order by text -/

def lexicalKey (name : String) : SortKey := .text name

end LayeredConfig.Order
