import LayeredConfig.Text.ClassTables
import LayeredConfig.Text.UnprintableTable

/-!
# Classes of characters

The classes of characters that readers and printers ask for. White space, digits and printed forms
are those of Unicode, not of ASCII alone.
-/

namespace LayeredConfig.Text

def CodeRanges.has (ranges : CodeRanges) (c : Char) : Bool :=
  ranges.any fun range => range.1 ≤ c.toNat && c.toNat ≤ range.2

/-- White space in any script. -/
def isBlank (c : Char) : Bool := blankRanges.has c

/-- The value of a decimal digit in any script. -/
def digitValue? (c : Char) : Option Nat :=
  decimalZeros.findSome? fun first =>
    if first ≤ c.toNat && c.toNat < first + 10 then some (c.toNat - first) else none

/-- A digit of decimal notation in any script. -/
def isDecimalDigit (c : Char) : Bool := (digitValue? c).isSome

/-- A digit of any kind, superscripts and circled digits included. -/
def isAnyDigit (c : Char) : Bool := isDecimalDigit c || loneDigitRanges.has c

/-- A digit from `0` to `9`. -/
def isAsciiDigit (c : Char) : Bool := '0' ≤ c && c ≤ '9'

def isAscii (c : Char) : Bool := c.toNat < 128

/-- A character with a printed form; of the separators only the space has one. -/
def isPrintable (c : Char) : Bool :=
  if isAscii c then ' ' ≤ c && c ≤ '~' else !unprintableRanges.has c

/-- The number that a row of digits stands for; other characters count as zero. -/
def digitsValue (digits : List Char) : Nat :=
  digits.foldl (fun value c => 10 * value + (digitValue? c).getD 0) 0

/-- The value of a hexadecimal digit. -/
def hexValue? (c : Char) : Option Nat :=
  if isAsciiDigit c then some (c.toNat - '0'.toNat)
  else if 'a' ≤ c && c ≤ 'f' then some (c.toNat - 'a'.toNat + 10)
  else if 'A' ≤ c && c ≤ 'F' then some (c.toNat - 'A'.toNat + 10)
  else none

/-- The number that a row of digits stands for in the given base. -/
def valueInBase (base : Nat) (digits : List Char) : Nat :=
  digits.foldl (fun value c => base * value + (hexValue? c).getD 0) 0

/-- The digits of a number in a base up to sixteen, at least `width` of them. -/
def digitsInBase (base width value : Nat) : List Char :=
  let digits := Nat.toDigits base value
  List.replicate (width - digits.length) '0' ++ digits

/-- A code point as a character, if there is one with that number. -/
def charOfCode? (code : Nat) : Option Char :=
  if h : code.isValidChar then some (Char.ofNatAux code h) else none

end LayeredConfig.Text
