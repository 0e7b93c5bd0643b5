import LayeredConfig.Number.Decimal

/-!
# Binary floating-point numbers

Double-precision numbers in exact arithmetic: a sign, a mantissa below `2 ^ 53` and a power of two.
Every operation computes the exact result first and rounds it once, to the nearest number and, at a
tie, to the even one.
-/

namespace LayeredConfig

inductive Binary64
  /-- The number `mantissa * 2 ^ exponent` under a sign. -/
  | finite (negative : Bool) (mantissa : Nat) (exponent : Int)
  | infinite (negative : Bool)
  | nan
  deriving DecidableEq, Repr, Inhabited

namespace Binary64

open Text

/-! ## Rounding -/

/-- The integer nearest to a quotient; a tie goes to the even one. -/
def divRound (num den : Nat) : Nat :=
  let quotient := num / den
  let twice := 2 * (num % den)
  if twice < den then quotient
  else if den < twice then quotient + 1
  else quotient + quotient % 2

/-- Mantissas lie below `2 ^ 53`. -/
def mantissaBound : Nat := 9007199254740992

/-- The least power of two of a mantissa. -/
def minExponent : Int := -1074

/-- `num / den` divided by `2 ^ exponent`, as a pair. -/
def scale (num den : Nat) (exponent : Int) : Nat × Nat :=
  if exponent < 0 then (num * Nat.pow 2 exponent.natAbs, den)
  else (num, den * Nat.pow 2 exponent.toNat)

/-- The double nearest to `num / den`. -/
def ofRatio (negative : Bool) (num den : Nat) : Binary64 :=
  if num = 0 then finite negative 0 minExponent
  else
    let guess := max ((num.log2 : Int) - den.log2 - 53) minExponent
    let (n, d) := scale num den guess
    let exponent := if mantissaBound ≤ n / d then guess + 1 else guess
    let (n, d) := scale num den exponent
    let mantissa := divRound n d
    let (mantissa, exponent) :=
      if mantissa = mantissaBound then (mantissaBound / 2, exponent + 1) else (mantissa, exponent)
    if 971 < exponent then infinite negative else finite negative mantissa exponent

/-- The double nearest to a decimal number; what is far out of range is not computed. -/
def ofDecimal : Decimal → Binary64
  | .nan .. => nan
  | .infinite negative => infinite negative
  | .finite negative coefficient exponent =>
    if coefficient = 0 then finite negative 0 minExponent
    else if 310 < Decimal.leadingExponent coefficient exponent then infinite negative
    else if Decimal.leadingExponent coefficient exponent < -345 then finite negative 0 minExponent
    else if exponent < 0 then ofRatio negative coefficient (Nat.pow 10 exponent.natAbs)
    else ofRatio negative (coefficient * Nat.pow 10 exponent.toNat) 1

/-- Reads a number or the name of a special one between white space. -/
def ofChars? (text : List Char) : Option Binary64 :=
  let body := trim isBlank text
  match Decimal.ofChars? body with
  | some (.nan _ signaling _) =>
    if signaling || body.getLast?.any isDecimalDigit then none else some nan
  | found => found.map ofDecimal

def ofInt (n : Int) : Binary64 := ofRatio (n < 0) n.natAbs 1

/-! ## Value -/

/-- The magnitude of a mantissa and exponent as a quotient. -/
def ratio (mantissa : Nat) (exponent : Int) : Nat × Nat :=
  if exponent < 0 then (mantissa, Nat.pow 2 exponent.natAbs)
  else (mantissa * Nat.pow 2 exponent.toNat, 1)

/-- The number digit by digit; every double has a finite decimal expansion. -/
def toDecimal : Binary64 → Decimal
  | nan => .nan false false 0
  | infinite negative => .infinite negative
  | finite negative mantissa exponent =>
    if exponent < 0 then .finite negative (mantissa * Nat.pow 5 exponent.natAbs) exponent
    else .finite negative (mantissa * Nat.pow 2 exponent.toNat) 0

def isNan : Binary64 → Bool
  | nan => true
  | _ => false

def isFinite : Binary64 → Bool
  | finite .. => true
  | _ => false

def isZero : Binary64 → Bool
  | finite _ mantissa _ => mantissa == 0
  | _ => false

def negate : Binary64 → Binary64
  | finite negative mantissa exponent => finite (!negative) mantissa exponent
  | infinite negative => infinite (!negative)
  | nan => nan

/-- The whole number that a double is equal to, if there is one. -/
def toInt? : Binary64 → Option Int
  | finite negative mantissa exponent =>
    let (num, den) := ratio mantissa exponent
    if num % den = 0 then some (if negative then -((num / den : Nat) : Int) else (num / den : Nat))
    else none
  | _ => none

/-- The signed numerator over the positive denominator. -/
def signedRatio (negative : Bool) (mantissa : Nat) (exponent : Int) : Int × Nat :=
  let (num, den) := ratio mantissa exponent
  (if negative then -(num : Int) else num, den)

/-- Strictly less in value; false as soon as one side is not a number. -/
def lt : Binary64 → Binary64 → Bool
  | nan, _ | _, nan => false
  | infinite a, infinite b => a && !b
  | infinite a, finite .. => a
  | finite .., infinite b => !b
  | finite a m p, finite b n q =>
    let (x, dx) := signedRatio a m p
    let (y, dy) := signedRatio b n q
    x * dy < y * dx

/-- Equality in value: the two zeros are equal, and a not-a-number equals nothing. -/
def sameValue (a b : Binary64) : Bool := a.toDecimal.sameValue b.toDecimal

/-! ## Arithmetic -/

def ofSignedRatio (num : Int) (den : Nat) : Binary64 := ofRatio (num < 0) num.natAbs den

/-- The rounded sum; a zero result is positive. -/
def add : Binary64 → Binary64 → Binary64
  | nan, _ | _, nan => nan
  | infinite a, infinite b => if a == b then infinite a else nan
  | infinite a, finite .. => infinite a
  | finite .., infinite b => infinite b
  | finite a m p, finite b n q =>
    if a && b && m == 0 && n == 0 then finite true 0 minExponent
    else
      let (x, dx) := signedRatio a m p
      let (y, dy) := signedRatio b n q
      ofSignedRatio (x * dy + y * dx) (dx * dy)

def mul : Binary64 → Binary64 → Binary64
  | nan, _ | _, nan => nan
  | infinite a, infinite b => infinite (a != b)
  | infinite a, finite b n _ => if n == 0 then nan else infinite (a != b)
  | finite a m _, infinite b => if m == 0 then nan else infinite (a != b)
  | finite a m p, finite b n q =>
    let (x, dx) := ratio m p
    let (y, dy) := ratio n q
    ofRatio (a != b) (x * y) (dx * dy)

/-! ## Written forms -/

/-- The exponent of the leading decimal digit of a positive quotient that is no negative power of
ten. -/
def leadingExponent (num den : Nat) : Int :=
  if den ≤ num then (Nat.toDigits 10 (num / den)).length - 1
  else -((Nat.toDigits 10 (den / num)).length : Int)

/-- `num / den` divided by `10 ^ exponent`, as a pair. -/
def scaleTen (num den : Nat) (exponent : Int) : Nat × Nat :=
  if exponent < 0 then (num * Nat.pow 10 exponent.natAbs, den)
  else (num, den * Nat.pow 10 exponent.toNat)

/--
The decimal with `count` digits that is nearest to a positive double among those that read back as
it, if there is one: only the two neighbours on the decimal grid can be.
-/
def withDigits? (mantissa : Nat) (exponent : Int) (count : Nat) : Option (Nat × Int) :=
  let (num, den) := ratio mantissa exponent
  let power := leadingExponent num den - count + 1
  let (n, d) := scaleTen num den power
  let below := n / d
  let readsBack (digits : Nat) : Bool :=
    ofDecimal (.finite false digits power) == finite false mantissa exponent
  let nearest := divRound n d
  let other := if nearest = below then below + 1 else below
  if readsBack nearest then some (nearest, power)
  else if readsBack other then some (other, power)
  else none

/-- The fewest digits that read back as the same double, and their power of ten. -/
def shortest (mantissa : Nat) (exponent : Int) : Nat × Int :=
  (((List.range 17).findSome? fun n => withDigits? mantissa exponent (n + 1)).map
    fun (digits, power) => Decimal.stripZeros digits power).getD (mantissa, exponent)

/-- A power of ten with its sign and at least two digits. -/
def exponentText (exponent : Int) : List Char :=
  (if exponent < 0 then '-' else '+') :: digitsInBase 10 2 exponent.natAbs

/-- Shortest digits; positional from `0.0001` up to sixteen digits before the point. -/
def magnitudeText (mantissa : Nat) (exponent : Int) : List Char :=
  if mantissa = 0 then "0.0".toList
  else
    let (value, power) := shortest mantissa exponent
    let digits := Nat.toDigits 10 value
    let place := power + digits.length
    if -4 < place ∧ place ≤ 16 then
      let text := Decimal.placePoint digits place
      if digits.length ≤ place then text ++ ".0".toList else text
    else
      (if digits.length = 1 then digits else Decimal.placePoint digits 1) ++
        'e' :: exponentText (place - 1)

/-- The shortest text that reads back as the same double. -/
def toText : Binary64 → String
  | nan => "nan"
  | infinite negative => if negative then "-inf" else "inf"
  | finite negative mantissa exponent =>
    String.ofList (Decimal.signText negative ++ magnitudeText mantissa exponent)

/-- The double with exactly `places` digits after the point. -/
def toFixed (places : Nat) : Binary64 → String
  | nan => "nan"
  | infinite negative => if negative then "-inf" else "inf"
  | finite negative mantissa exponent =>
    let (num, den) := ratio mantissa exponent
    let digits := digitsInBase 10 (places + 1) (divRound (num * Nat.pow 10 places) den)
    String.ofList (Decimal.signText negative ++ digits.take (digits.length - places) ++
      '.' :: digits.drop (digits.length - places))

/-- The number whose shortest text is that of the double. -/
def toShortestDecimal : Binary64 → Decimal
  | nan => .nan false false 0
  | infinite negative => .infinite negative
  | value => (Decimal.ofText? value.toText).getD value.toDecimal

end Binary64

end LayeredConfig
