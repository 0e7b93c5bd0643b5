import LayeredConfig.Number.Binary64

/-!
# Scalars

The values a leaf may hold. Numbers with a fraction stay decimal, so that the digits of a source
survive until a value is consumed.
-/

namespace LayeredConfig

inductive Scalar
  | null
  | bool (value : Bool)
  | int (value : Int)
  | float (value : Decimal)
  | text (value : String)
  deriving DecidableEq, Repr, Inhabited

namespace Scalar

/-- How a truth value is written. -/
def boolText (value : Bool) : String := if value then "true" else "false"

/-- A scalar as it is displayed. -/
def toText : Scalar → String
  | null => "null"
  | bool value => boolText value
  | int value => toString value
  | float value => value.toText
  | text value => value

instance : ToString Scalar := ⟨toText⟩

def isNull : Scalar → Bool
  | null => true
  | _ => false

/-- Equality of kind and value; decimals are compared as numbers. -/
def same : Scalar → Scalar → Bool
  | null, null => true
  | bool a, bool b => a == b
  | int a, int b => a == b
  | float a, float b => a.sameValue b
  | text a, text b => a == b
  | _, _ => false

end Scalar

end LayeredConfig
