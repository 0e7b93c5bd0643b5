import LayeredConfig.Text.Trim

/-!
# Integers in text

Reading a whole number in any base up to sixteen. Digits of every script count.
-/

namespace LayeredConfig.Integer

open Text

/-- The value of a digit below the base. -/
def digit? (base : Nat) (c : Char) : Option Nat :=
  ((hexValue? c).or (digitValue? c)).filter (· < base)

/-- The letter that may stand behind a zero in front of digits in the base. -/
def baseMark? : Nat → Option Char
  | 2 => some 'b'
  | 8 => some 'o'
  | 16 => some 'x'
  | _ => none

/-- Digits without the zero and the letter that announce their base. -/
def dropMark (base : Nat) : List Char → List Char
  | '0' :: c :: rest => if baseMark? base == some c.toLower then rest else '0' :: c :: rest
  | digits => digits

/-- The natural number that a row of digits spells. -/
def natural? (base : Nat) (digits : List Char) : Option Nat :=
  if digits.isEmpty then none
  else digits.foldlM (fun value c => (digit? base c).map (base * value + ·)) 0

/-- Reads a number with an optional sign between white space. -/
def ofChars? (base : Nat) (text : List Char) : Option Int :=
  match trim isBlank text with
  | '-' :: digits => (natural? base (dropMark base digits)).map fun n => -(n : Int)
  | '+' :: digits => (natural? base (dropMark base digits)).map Int.ofNat
  | digits => (natural? base (dropMark base digits)).map Int.ofNat

end LayeredConfig.Integer
