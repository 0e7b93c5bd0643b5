import LayeredConfig.Number.Binary64

/-!
# Numbers first

The order of siblings in documented output: names that are numbers come first, by value, then all
other names as text.
-/

namespace LayeredConfig.Order

/-- The number that a name is, read as a double. -/
def numberOfName? (name : String) : Option Binary64 :=
  let (negative, body) := Decimal.takeSign name.toList
  match body.map Char.toLower with
  | ['i', 'n', 'f'] | ['i', 'n', 'f', 'i', 'n', 'i', 't', 'y'] => some (.infinite negative)
  | _ => (Decimal.unsigned? negative body).map Binary64.ofDecimal

def compareNumbers (a b : Binary64) : Ordering :=
  if a.lt b then .lt else if b.lt a then .gt else .eq

/-- Numbers by value before other names; the names break ties. -/
def numericFirst (a b : String) : Ordering :=
  match numberOfName? a, numberOfName? b with
  | some x, some y => (compareNumbers x y).then (compare a b)
  | some _, none => .lt
  | none, some _ => .gt
  | none, none => compare a b

end LayeredConfig.Order
