import LayeredConfig.Calendar
import LayeredConfig.Number.Binary64
import LayeredConfig.Number.Integer
import LayeredConfig.Scalar
import LayeredConfig.Text.Casing
import LayeredConfig.Yaml.ReadFault
import LayeredConfig.Yaml.Resolve

/-!
# Values of tagged scalars

What a scalar stands for, given its tag. The tag may have been spelt out, so that the text need not
look like such a value.
-/

namespace LayeredConfig.Yaml.TaggedScalar

open Text

/-- What a scalar stands for. -/
inductive Reading
  | scalar (value : Scalar)
  /-- Bytes, for which a tree has no place. -/
  | bytes
  deriving Repr

def withoutGaps (text : String) : List Char := text.toList.filter (· != '_')

/-- A leading minus sign, and the text without its sign. -/
def signed? : List Char → Except ReadFault (Bool × List Char)
  | [] => .error (.noSuchValue .outOfBounds)
  | '-' :: rest => .ok (true, rest)
  | '+' :: rest => .ok (false, rest)
  | text => .ok (false, text)

def wrongValue {α : Type} (found : Option α) : Except ReadFault α :=
  match found with
  | some value => .ok value
  | none => .error (.noSuchValue .wrongValue)

def truth (text : String) : Except ReadFault Bool :=
  let lowered := lower text
  if truthTexts.contains lowered then .ok true
  else if falsehoodTexts.contains lowered then .ok false
  else .error (.noSuchValue .wrongKey)

/-- Whole numbers in the bases two, eight, ten and sixteen, or in steps of sixty. -/
def integer (text : String) : Except ReadFault Int := do
  let (negative, body) ← signed? (withoutGaps text)
  let magnitude ←
    match body with
    | [] => .error (.noSuchValue .outOfBounds)
    | ['0'] => pure 0
    | '0' :: 'b' :: digits => wrongValue (Integer.ofChars? 2 digits)
    | '0' :: 'x' :: digits => wrongValue (Integer.ofChars? 16 digits)
    | '0' :: digits => wrongValue (Integer.ofChars? 8 ('0' :: digits))
    | body => do
      let parts ← wrongValue ((splitAll [':'] body).mapM (Integer.ofChars? 10))
      pure (parts.foldl (fun value part => 60 * value + part) 0)
  return if negative then -magnitude else magnitude

/-- The sum of the parts, the last one weighted by one and every other by sixty times the next. -/
def sexagesimal (parts : List Binary64) : Except ReadFault Binary64 :=
  (parts.reverse.zipIdx).foldlM (fun sum (part, place) =>
      let weight := Binary64.ofInt (Nat.pow 60 place)
      if weight.isFinite then .ok (sum.add (part.mul weight))
      else .error (.noSuchValue .outOfRange))
    (Binary64.ofInt 0)

/-- Binary numbers, also in steps of sixty. -/
def double (text : String) : Except ReadFault Binary64 := do
  let (negative, body) ← signed? (lower (String.ofList (withoutGaps text))).toList
  if body == ".inf".toList then return .infinite negative
  else if body == ".nan".toList then return .nan
  else
    let magnitude ←
      if body.contains ':' then do
        sexagesimal (← wrongValue ((splitAll [':'] body).mapM Binary64.ofChars?))
      else wrongValue (Binary64.ofChars? body)
    return if negative then magnitude.negate else magnitude

/-- Numbers with a fraction keep their digits if they are spelt in the usual way. -/
def fraction (text : String) : Except ReadFault Decimal :=
  match Decimal.ofText? (String.ofList (withoutGaps text)) with
  | some number => .ok number
  | none => (double text).map Binary64.toShortestDecimal

/-- Points in time, written anew in their usual form. -/
def moment (text : String) : Except ReadFault String := do
  let chars := text.toList
  match timestamp? ((dropEnd? ['\n'] chars).getD chars) with
  | none => .error (.noSuchValue .missingAttribute)
  | some stamp =>
    let date : Date := ⟨digitsValue stamp.year, digitsValue stamp.month, digitsValue stamp.day⟩
    match stamp.time with
    | none => if date.isValid then return date.toText else .error (.noSuchValue .wrongValue)
    | some (hour, minute, second, fraction) =>
      let clock : Clock :=
        { hour := digitsValue hour, minute := digitsValue minute, second := digitsValue second
          microsecond := Clock.microseconds fraction }
      let zone : Option ZoneOffset := stamp.zone.map fun numeric =>
        match numeric with
        | none => 0
        | some (sign, hours, minutes) =>
          let offset : Int := 60 * digitsValue hours + digitsValue minutes
          if sign == '-' then -offset else offset
      if date.isValid && clock.isValid && zone.all ZoneOffset.isValid then
        return dateTimeText date clock zone
      else .error (.noSuchValue .wrongValue)

/-- A digit of base 64. -/
def isBase64Digit (c : Char) : Bool :=
  ('A' ≤ c && c ≤ 'Z') || ('a' ≤ c && c ≤ 'z') || isAsciiDigit c || c == '+' || c == '/'

/--
Whether the digits of a text form whole groups of four; other characters are skipped. `place` is the
number of digits in the open group and `pads` that of the equal signs behind the last digit; equal
signs that fill up a group end the text.
-/
def isBase64 (place pads : Nat) : List Char → Bool
  | [] => place == 0
  | c :: rest =>
    if c == '=' then
      if place < 2 then isBase64 place pads rest
      else if 4 ≤ place + pads + 1 then true
      else isBase64 place (pads + 1) rest
    else if isBase64Digit c then isBase64 ((place + 1) % 4) 0 rest
    else isBase64 place pads rest

/-- What the scalar with a tag and a text stands for. -/
def read (tag text : String) : Except ReadFault Reading :=
  if tag == coreTag "float" then (fraction text).map (.scalar ∘ .float)
  else if tag == coreTag "str" then .ok (.scalar (.text text))
  else if tag == coreTag "null" then .ok (.scalar .null)
  else if tag == coreTag "bool" then (truth text).map (.scalar ∘ .bool)
  else if tag == coreTag "int" then (integer text).map (.scalar ∘ .int)
  else if tag == coreTag "timestamp" then (moment text).map (.scalar ∘ .text)
  else if tag == coreTag "binary" then
    if text.toList.all isAscii && isBase64 0 0 text.toList then .ok .bytes else .error .malformed
  else .error .malformed

end LayeredConfig.Yaml.TaggedScalar
