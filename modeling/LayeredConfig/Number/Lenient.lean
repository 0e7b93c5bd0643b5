import LayeredConfig.Number.Binary64
import LayeredConfig.Text.Casing

/-!
# Lenient conversions

What a text or a number becomes where another kind of scalar is asked for. Nothing is lost: a
fraction never becomes an integer, and a number becomes a truth value only if it is zero or one.
-/

namespace LayeredConfig.Lenient

open Text

/-- White space that may surround a number; separators of records are not among it. -/
def isSpace (c : Char) : Bool := isBlank c && !('\x1c' ≤ c && c ≤ '\x1f')

/-- The text without its underscores, if each of them stands inside and alone. -/
def withoutUnderscores? (text : List Char) : Option (List Char) :=
  if text.contains '_' && text.head? != some '_' && text.getLast? != some '_'
      && !hasDouble text then
    some (text.filter (· != '_'))
  else none
where
  hasDouble : List Char → Bool
    | a :: b :: rest => (a == '_' && b == '_') || hasDouble (b :: rest)
    | _ => false

/-! ## Integers -/

/-- An integer in its usual form: no plus sign and no leading zeros. -/
def strictInt? (text : List Char) : Option Int :=
  let (negative, digits) :=
    match text with
    | '-' :: rest => (true, rest)
    | rest => (false, rest)
  if digits.isEmpty || !digits.all isAsciiDigit
      || (digits.head? == some '0' && digits.length != 1) then
    none
  else some (if negative then -(digitsValue digits : Int) else digitsValue digits)

/-- Digits behind a zero; `last` is the latest character that was passed over. -/
def behindZeros? (last : Char) : List Char → Option (List Char)
  | [] => some [last]
  | c :: rest =>
    if c == '0' || c == '_' then behindZeros? c rest
    else if isAsciiDigit c then some (c :: rest)
    else if c == '.' then some (last :: c :: rest)
    else none

/-- A number without its leading zeros; a last zero before a point stays. -/
def withoutZeros? : List Char → Option (List Char)
  | [] => none
  | c :: rest =>
    if c == '0' then behindZeros? c rest
    else if isAsciiDigit c || c == '-' then some (c :: rest)
    else none

/-- A number without a fraction that is nothing but zeros. -/
def withoutFraction (text : List Char) : List Char :=
  match text.dropWhile (· != '.') with
  | '.' :: zeros =>
    if !zeros.isEmpty && zeros.all (· == '0') then text.takeWhile (· != '.') else text
  | _ => text

def withoutPlus : List Char → List Char
  | '+' :: '-' :: rest => '+' :: '-' :: rest
  | '+' :: rest => rest
  | text => text

/-- The integer that a text spells: signs, leading zeros, underscores and an empty fraction pass. -/
def intOfText? (text : List Char) : Option Int :=
  (strictInt? text).or <| do
    let body ← withoutZeros? (withoutPlus (trim isSpace text))
    let whole := withoutFraction body
    strictInt? ((withoutUnderscores? whole).getD whole)

/-- The integer that a double is, as long as it is below 2^63. -/
def intOfDouble? (value : Binary64) : Option Int :=
  value.toInt?.filter fun n => n.natAbs < 9223372036854775808

/-- The integer that a decimal number is. -/
def intOfDecimal? (value : Decimal) : Option Int :=
  match value.normal with
  | .finite negative coefficient exponent =>
    if exponent < 0 then none
    else
      let magnitude : Int := (coefficient * Nat.pow 10 exponent.toNat : Nat)
      some (if negative then -magnitude else magnitude)
  | _ => none

/-! ## Doubles -/

/-- A number in ASCII digits, or the name of an infinity or a not-a-number. -/
def strictDouble? (text : List Char) : Option Binary64 :=
  if text.all isAscii then
    let (negative, body) := Decimal.takeSign text
    match body.map Char.toLower with
    | ['n', 'a', 'n'] => some .nan
    | ['i', 'n', 'f'] | ['i', 'n', 'f', 'i', 'n', 'i', 't', 'y'] => some (.infinite negative)
    | _ => (Decimal.unsigned? negative body).map Binary64.ofDecimal
  else none

/-- The double that a text spells. -/
def doubleOfText? (text : List Char) : Option Binary64 :=
  (strictDouble? (trim isSpace text)).or <|
    (withoutUnderscores? text).bind fun stripped => strictDouble? (trim isSpace stripped)

/-- The double nearest to an integer, unless it is out of range. -/
def doubleOfInt? (value : Int) : Option Binary64 :=
  let double := Binary64.ofInt value
  if double.isFinite then some double else none

/-! ## Truth values -/

def truthWords : List String := ["1", "t", "y", "on", "yes", "true"]

def falsehoodWords : List String := ["0", "f", "n", "off", "no", "false"]

/-- The truth value that a word stands for, in any case of its ASCII letters. -/
def boolOfText? (text : List Char) : Option Bool :=
  let word := String.ofList (text.map Char.toLower)
  if truthWords.contains word then some true
  else if falsehoodWords.contains word then some false
  else none

/-- The truth value that an integer is. -/
def boolOfInt? (value : Int) : Option Bool :=
  if value = 0 then some false else if value = 1 then some true else none

end LayeredConfig.Lenient
