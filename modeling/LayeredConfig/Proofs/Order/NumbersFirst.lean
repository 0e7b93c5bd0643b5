import LayeredConfig.Order.NumericFirst
import Mathlib

/-! # Numbers first

The order of siblings is the order of a key: the value of a number, behind which all names without
one come, and then the name itself. So no two names tie, however many of them spell one number. -/

namespace LayeredConfig

namespace Binary64

/-! ## Values of doubles -/

/-- The value of a finite double. -/
def quotient (negative : Bool) (mantissa : Nat) (exponent : Int) : ℚ :=
  (signedRatio negative mantissa exponent).1 / (signedRatio negative mantissa exponent).2

/-- The place of a double among all of them: the infinities stand at the ends. -/
def rank : Binary64 → ℤ ×ₗ ℚ
  | infinite true => toLex (-1, 0)
  | finite negative mantissa exponent => toLex (0, quotient negative mantissa exponent)
  | infinite false => toLex (1, 0)
  | nan => toLex (2, 0)

end Binary64

namespace Order

end Order

end LayeredConfig
