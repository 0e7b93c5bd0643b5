import LayeredConfig.Fault
import LayeredConfig.Order.Natural

/-!
# Sorting records

The precedence of records is the order of their names. Every sorter is stable: items whose names
are not told apart keep their order.
-/

namespace LayeredConfig

/-- A way of ordering names, known under a label. -/
structure RecordSorter where
  label : String
  /-- Whether the first name stands strictly before the second. -/
  less : String → String → Bool
  deriving Inhabited

namespace RecordSorter

def lexicalLess (a b : String) : Bool := compare a b == .lt

def naturalLess (a b : String) : Bool := Order.natural a b == .lt

def lexical : RecordSorter := ⟨"lexical", lexicalLess⟩

def natural : RecordSorter := ⟨"natural", naturalLess⟩

/-- A sorter by the caller's own predicate. -/
def custom (less : Option (String → String → Bool)) : Except Fault RecordSorter :=
  match less with
  | some less => .ok ⟨"custom", less⟩
  | none => .error .lessMissing

/-- Items ordered by their names. -/
def sort {α : Type} (sorter : RecordSorter) (name : α → String) (items : List α) : List α :=
  items.mergeSort fun a b => !sorter.less (name b) (name a)

def sortNames (sorter : RecordSorter) (names : List String) : List String := sorter.sort id names

end RecordSorter

end LayeredConfig
