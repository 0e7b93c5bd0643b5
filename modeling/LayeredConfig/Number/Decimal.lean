import LayeredConfig.Text.Classes
import LayeredConfig.Text.Trim

/-!
# Decimal numbers

Numbers kept digit by digit, as they were written: a coefficient and a power of ten, so that `1.0`
and `1.00` are equal in value and different in text. Beside the finite numbers stand the two
infinities and the not-a-numbers.
-/

namespace LayeredConfig

inductive Decimal
  /-- The number `coefficient * 10 ^ exponent` under a sign. -/
  | finite (negative : Bool) (coefficient : Nat) (exponent : Int)
  | infinite (negative : Bool)
  /-- Not a number; a signaling one takes no part in any comparison. -/
  | nan (negative signaling : Bool) (payload : Nat)
  deriving DecidableEq, Repr, Inhabited

namespace Decimal

open Text

def isFinite : Decimal → Bool
  | finite .. => true
  | _ => false

def isNan : Decimal → Bool
  | nan .. => true
  | _ => false

def isSignaling : Decimal → Bool
  | nan _ signaling _ => signaling
  | _ => false

/-! ## Written form -/

def signText (negative : Bool) : List Char := if negative then ['-'] else []

/-- An exponent with its sign always shown. -/
def exponentText (exponent : Int) : List Char :=
  (if exponent < 0 then '-' else '+') :: Nat.toDigits 10 exponent.natAbs

/-- The digits with a point after the first `place` of them; zeros fill up what is missing. -/
def placePoint (digits : List Char) (place : Int) : List Char :=
  if place ≤ 0 then '0' :: '.' :: List.replicate place.natAbs '0' ++ digits
  else if digits.length ≤ place.toNat then
    digits ++ List.replicate (place.toNat - digits.length) '0'
  else digits.take place.toNat ++ '.' :: digits.drop place.toNat

/--
A finite number is written without an exponent when its exponent is not positive and at most five
zeros follow the point; otherwise with one digit before the point.
-/
def finiteText (coefficient : Nat) (exponent : Int) : List Char :=
  let digits := Nat.toDigits 10 coefficient
  let place := exponent + digits.length
  if exponent ≤ 0 ∧ -6 < place then placePoint digits place
  else placePoint digits 1 ++ (if place = 1 then [] else 'E' :: exponentText (place - 1))

def toChars : Decimal → List Char
  | finite negative coefficient exponent => signText negative ++ finiteText coefficient exponent
  | infinite negative => signText negative ++ "Infinity".toList
  | nan negative signaling payload =>
    signText negative ++ (if signaling then "sNaN" else "NaN").toList ++
      (if payload = 0 then [] else Nat.toDigits 10 payload)

def toText (d : Decimal) : String := String.ofList d.toChars

instance : ToString Decimal := ⟨toText⟩

/-! ## Reading -/

/-- A leading sign and what follows it. -/
def takeSign : List Char → Bool × List Char
  | '-' :: rest => (true, rest)
  | '+' :: rest => (false, rest)
  | text => (false, text)

/-- The exponent that ends a number; nothing at all is the exponent zero. -/
def exponent? : List Char → Option Int
  | [] => some 0
  | c :: rest =>
    let (negative, digits) := takeSign rest
    if (c == 'e' || c == 'E') && !digits.isEmpty && digits.all isDecimalDigit then
      some (if negative then -(digitsValue digits : Int) else digitsValue digits)
    else none

/-- An unsigned number in positional or scientific notation. -/
def unsigned? (negative : Bool) (text : List Char) : Option Decimal :=
  let whole := text.takeWhile isDecimalDigit
  let (fraction, rest) :=
    match text.dropWhile isDecimalDigit with
    | '.' :: rest => (rest.takeWhile isDecimalDigit, rest.dropWhile isDecimalDigit)
    | rest => ([], rest)
  if whole.isEmpty && fraction.isEmpty then none
  else (exponent? rest).map fun exponent =>
    finite negative (digitsValue (whole ++ fraction)) (exponent - fraction.length)

/-- The digits that may follow a not-a-number. -/
def payload? (negative signaling : Bool) (digits : List Char) : Option Decimal :=
  if digits.all isDecimalDigit then some (nan negative signaling (digitsValue digits)) else none

/-- Reads a number in any of its spellings, of any size. -/
def ofChars? (text : List Char) : Option Decimal :=
  let (negative, body) := takeSign text
  match body.map Char.toLower with
  | ['i', 'n', 'f'] | ['i', 'n', 'f', 'i', 'n', 'i', 't', 'y'] => some (infinite negative)
  | 'n' :: 'a' :: 'n' :: _ => payload? negative false (body.drop 3)
  | 's' :: 'n' :: 'a' :: 'n' :: _ => payload? negative true (body.drop 4)
  | _ => unsigned? negative body

/-- The exponent of the leading digit. -/
def leadingExponent (coefficient : Nat) (exponent : Int) : Int :=
  exponent + (Nat.toDigits 10 coefficient).length - 1

/-- Whether exact arithmetic holds the number: eighteen digits bound its exponents. -/
def isRepresentable : Decimal → Bool
  | finite _ coefficient exponent =>
    leadingExponent coefficient exponent ≤ 999999999999999999 && -1999999999999999997 ≤ exponent
  | _ => true

/-- Reads a number that may be surrounded by white space and divided by underscores. -/
def ofText? (text : String) : Option Decimal :=
  (ofChars? ((trim isBlank text.toList).filter (· != '_'))).filter isRepresentable

/-! ## Value -/

/-- Moves the trailing zeros of a coefficient into the exponent. -/
def stripZeros (coefficient : Nat) (exponent : Int) : Nat × Int :=
  if coefficient = 0 then (0, 0)
  else if coefficient % 10 = 0 then stripZeros (coefficient / 10) (exponent + 1)
  else (coefficient, exponent)
termination_by coefficient

/-- The same number with the shortest coefficient; zero loses its sign. -/
def normal : Decimal → Decimal
  | finite negative coefficient exponent =>
    let (digits, power) := stripZeros coefficient exponent
    finite (negative && digits != 0) digits power
  | d => d

/-- Equality in value: the text does not matter, and a not-a-number equals nothing. -/
def sameValue (a b : Decimal) : Bool := !a.isNan && !b.isNan && a.normal = b.normal

def ofInt (n : Int) : Decimal := finite (n < 0) n.natAbs 0

def isZero : Decimal → Bool
  | finite _ coefficient _ => coefficient == 0
  | _ => false

end Decimal

end LayeredConfig
