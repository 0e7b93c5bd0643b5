import LayeredConfig.Text.Classes

/-!
# Natural order

Names are cut into maximal runs of digits and of other characters. Runs of digits are compared as
numbers and stand before other runs; the full names break any remaining tie.
-/

namespace LayeredConfig.Order

/-- A maximal run of digits, or of characters that are no digits. -/
structure Run where
  isNumber : Bool
  text : List Char
  deriving DecidableEq, Repr

/-- The maximal runs of a text. -/
def runs : List Char → List Run
  | [] => []
  | c :: rest =>
    let kind := Text.isDecimalDigit c
    match runs rest with
    | run :: others =>
      if run.isNumber = kind then ⟨kind, c :: run.text⟩ :: others else ⟨kind, [c]⟩ :: run :: others
    | [] => [⟨kind, [c]⟩]

def compareText (a b : List Char) : Ordering := compare (String.ofList a) (String.ofList b)

/-- Numbers before other runs, numbers by value, and equal values and other runs by text. -/
def Run.compare (a b : Run) : Ordering :=
  match a.isNumber, b.isNumber with
  | true, false => .lt
  | false, true => .gt
  | true, true =>
    (Ord.compare (Text.digitsValue a.text) (Text.digitsValue b.text)).then
      (compareText a.text b.text)
  | false, false => compareText a.text b.text

/-- The first difference decides; a proper beginning stands first. -/
def compareRuns : List Run → List Run → Ordering
  | [], [] => .eq
  | [], _ :: _ => .lt
  | _ :: _, [] => .gt
  | a :: as, b :: bs => (a.compare b).then (compareRuns as bs)

/-- Natural order of names. -/
def natural (a b : String) : Ordering :=
  (compareRuns (runs a.toList) (runs b.toList)).then (compare a b)

end LayeredConfig.Order
