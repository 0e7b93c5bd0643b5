/-!
# Shapes

A node of a configuration tree is a scalar, a map or an array.
-/

namespace LayeredConfig

inductive Shape
  | scalar
  | map
  | array
  deriving DecidableEq, Repr, Inhabited

def Shape.toText : Shape → String
  | .scalar => "scalar"
  | .map => "map"
  | .array => "array"

instance : ToString Shape := ⟨Shape.toText⟩

end LayeredConfig
