import LayeredConfig.Calendar
import LayeredConfig.Number.Integer
import LayeredConfig.Toml.Text

/-!
# TOML numbers and points in time

The longest beginning of a text that is a date, a time or a number. Underscores may stand between
two digits.
-/

namespace LayeredConfig.Toml

open Text

/-! ## Points in time -/

/-- A number of exactly two digits within bounds. -/
def twoDigits? (low high : Nat) : List Char → Option (Nat × List Char)
  | a :: b :: rest =>
    let value := digitsValue [a, b]
    if isAsciiDigit a && isAsciiDigit b && low ≤ value && value ≤ high then some (value, rest)
    else none
  | _ => none

def expect? (c : Char) : List Char → Option (List Char)
  | d :: rest => if d == c then some rest else none
  | [] => none

/-- A time of day, with digits of a second if any follow. -/
def clock? (text : List Char) : Option (Clock × List Char) := do
  let (hour, rest) ← twoDigits? 0 23 text
  let (minute, rest) ← twoDigits? 0 59 (← expect? ':' rest)
  let (second, rest) ← twoDigits? 0 59 (← expect? ':' rest)
  match rest with
  | '.' :: digit :: rest =>
    if isAsciiDigit digit then
      let fraction := digit :: rest.takeWhile isAsciiDigit
      return (⟨hour, minute, second, Clock.microseconds fraction⟩, rest.dropWhile isAsciiDigit)
    else return ({ hour, minute, second }, '.' :: digit :: rest)
  | rest => return ({ hour, minute, second }, rest)

/-- A date; whether the calendar has it is not asked here. -/
def date? (text : List Char) : Option (Date × List Char) := do
  let year := text.take 4
  if year.length == 4 && year.all isAsciiDigit then
    let (month, rest) ← twoDigits? 1 12 (← expect? '-' (text.drop 4))
    let (day, rest) ← twoDigits? 1 31 (← expect? '-' rest)
    return (⟨digitsValue year, month, day⟩, rest)
  else none

/-- A zone, if one follows. -/
def zone (text : List Char) : Option ZoneOffset × List Char :=
  match text with
  | [] => (none, [])
  | c :: rest =>
    if c == 'Z' || c == 'z' then (some 0, rest)
    else
      let offset? : Option (ZoneOffset × List Char) := do
        if c == '+' || c == '-' then
          let (hours, rest) ← twoDigits? 0 23 rest
          let (minutes, rest) ← twoDigits? 0 59 (← expect? ':' rest)
          let offset : Int := 60 * hours + minutes
          return (if c == '-' then -offset else offset, rest)
        else none
      match offset? with
      | some (offset, rest) => (some offset, rest)
      | none => (none, c :: rest)

/-- The time of day behind a date. -/
def timeBehind? : List Char → Option (Clock × List Char)
  | c :: rest => if c == 'T' || c == 't' || c == ' ' then clock? rest else none
  | [] => none

/-- A date with or without a time, or a time alone. -/
def moment? (text : List Char) : Option (Parsed Toml) :=
  match date? text with
  | some (date, rest) =>
    if !date.isValid then some (.error .malformed)
    else
      match timeBehind? rest with
      | some (clock, rest) =>
        let (offset, rest) := zone rest
        some (.ok (.moment .dateTime (dateTimeText date clock offset), rest))
      | none => some (.ok (.moment .date date.toText, rest))
  | none => (clock? text).map fun (clock, rest) => .ok (.moment .time clock.toText, rest)

/-! ## Numbers -/

/-- Digits with single underscores between them; what is not part of them follows. -/
def digits (p : Char → Bool) : List Char → List Char × List Char
  | [] => ([], [])
  | [c] => if p c then ([c], []) else ([], [c])
  | c :: d :: rest =>
    if p c then
      let (more, left) :=
        if d == '_' && rest.head?.any p then digits p rest else digits p (d :: rest)
      (c :: more, left)
    else ([], c :: d :: rest)

/-- The base that a letter behind a zero announces. -/
def announcedBase? : Char → Option Nat
  | 'x' => some 16
  | 'o' => some 8
  | 'b' => some 2
  | _ => none

/-- An integer in another base than ten. -/
def basedInt? : List Char → Option (Int × List Char)
  | '0' :: mark :: rest => do
    let base ← announcedBase? mark
    let (found, rest) := digits (fun c => (hexValue? c).any (· < base)) rest
    if found.isEmpty then none else some (valueInBase base found, rest)
  | _ => none

/-- The digits before a point: a zero alone, or digits that start with no zero. -/
def wholeDigits : List Char → List Char × List Char
  | '0' :: rest => (['0'], rest)
  | text => digits isAsciiDigit text

/-- A point with digits behind it. -/
def fractionDigits (text : List Char) : List Char × List Char :=
  match text with
  | '.' :: rest =>
    match digits isAsciiDigit rest with
    | ([], _) => ([], text)
    | (found, rest) => ('.' :: found, rest)
  | _ => ([], text)

/-- An exponent with or without a sign. -/
def exponentDigits (text : List Char) : List Char × List Char :=
  match text with
  | c :: rest =>
    if c == 'e' || c == 'E' then
      let (sign, rest) :=
        match rest with
        | '+' :: rest => (['+'], rest)
        | '-' :: rest => (['-'], rest)
        | rest => ([], rest)
      match digits isAsciiDigit rest with
      | ([], _) => ([], text)
      | (found, rest) => ('e' :: sign ++ found, rest)
    else ([], text)
  | [] => ([], [])

/-- A number in base ten; with a fraction or an exponent it keeps its digits. -/
def decimal? (text : List Char) : Option (Parsed Toml) :=
  let (negative, body) := Decimal.takeSign text
  let (whole, rest) := wholeDigits body
  if whole.isEmpty then none
  else
    let (places, rest) := fractionDigits rest
    let (exponent, rest) := exponentDigits rest
    if places.isEmpty && exponent.isEmpty then
      let value : Int := digitsValue whole
      some (.ok (.int (if negative then -value else value), rest))
    else
      let number? := Decimal.unsigned? negative (whole ++ places ++ exponent)
      match number?.filter Decimal.isRepresentable with
      | some number => some (.ok (.fraction number, rest))
      | none => some (.error .unrepresentable)

/-- An infinity or a not-a-number by name. -/
def special? (text : List Char) : Option (Parsed Toml) :=
  let (negative, body) := Decimal.takeSign text
  match body with
  | 'i' :: 'n' :: 'f' :: rest => some (.ok (.fraction (.infinite negative), rest))
  | 'n' :: 'a' :: 'n' :: rest => some (.ok (.fraction (.nan negative false 0), rest))
  | _ => none

/-- A point in time or a number. -/
def timeOrNumber (text : List Char) : Parsed Toml :=
  let found : Option (Parsed Toml) :=
    (moment? text).or <|
      ((basedInt? text).map fun (value, rest) => .ok (.int value, rest)).or <|
        (decimal? text).or (special? text)
  found.getD (.error .malformed)

end LayeredConfig.Toml
