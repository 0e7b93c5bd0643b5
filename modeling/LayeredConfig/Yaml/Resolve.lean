import LayeredConfig.Text.Classes
import LayeredConfig.Text.Split

/-!
# Tags of plain scalars

A scalar without quotes and without a tag of its own is what its text looks like: nothing, a truth
value, a number, a point in time, or else a text.
-/

namespace LayeredConfig.Yaml

open Text

/-- The beginning of all tags of the language itself. -/
def coreTag (name : String) : String := "tag:yaml.org,2002:" ++ name

def isNullText (text : String) : Bool := ["~", "null", "Null", "NULL", ""].contains text

def truthTexts : List String := ["yes", "Yes", "YES", "true", "True", "TRUE", "on", "On", "ON"]

def falsehoodTexts : List String :=
  ["no", "No", "NO", "false", "False", "FALSE", "off", "Off", "OFF"]

def isBoolText (text : String) : Bool := truthTexts.contains text || falsehoodTexts.contains text

/-- A text without a leading sign. -/
def unsigned (text : List Char) : List Char :=
  match text with
  | '-' :: rest | '+' :: rest => rest
  | _ => text

def isDigitOrGap (c : Char) : Bool := isAsciiDigit c || c == '_'

/-- A number of at most two digits below sixty. -/
def isSixtieth (text : List Char) : Bool :=
  match text with
  | [a] => isAsciiDigit a
  | [a, b] => '0' ≤ a && a ≤ '5' && isAsciiDigit b
  | _ => false

/-- Digits with gaps, the first one no gap. -/
def isGrouped (text : List Char) : Bool :=
  text.head?.any isAsciiDigit && text.all isDigitOrGap

/-- Numbers below sixty between colons, behind one of any size: hours, minutes and seconds. -/
def isSexagesimal (text : List Char) : Bool :=
  match splitAll [':'] text with
  | first :: second :: rest => isGrouped first && (second :: rest).all isSixtieth
  | _ => false

/-- Whole numbers: decimal, binary, octal, hexadecimal and sexagesimal. -/
def isIntText (text : List Char) : Bool :=
  let body := unsigned text
  let digits (p : Char → Bool) (rest : List Char) : Bool :=
    !rest.isEmpty && rest.all fun c => p c || c == '_'
  match body with
  | '0' :: 'b' :: rest => digits (fun c => c == '0' || c == '1') rest
  | '0' :: 'x' :: rest => digits (fun c => (hexValue? c).isSome) rest
  | '0' :: rest => rest.isEmpty || digits (fun c => '0' ≤ c && c ≤ '7') rest
  | _ => isGrouped body || (isSexagesimal body && body.head? != some '0')

/-- An exponent with its sign, or nothing. -/
def isExponentText (text : List Char) : Bool :=
  match text with
  | [] => true
  | mark :: sign :: digits =>
    (mark == 'e' || mark == 'E') && (sign == '+' || sign == '-') && !digits.isEmpty &&
      digits.all isAsciiDigit
  | _ => false

/-- Numbers with a point; an exponent needs its sign. -/
def isFloatText (text : List Char) : Bool :=
  let body := unsigned text
  let signed := body.length != text.length
  let (whole, rest) := (body.takeWhile (· != '.'), body.dropWhile (· != '.'))
  match rest with
  | [] => false
  | _ :: fraction =>
    let tail := fraction.dropWhile isDigitOrGap
    (isGrouped whole && isExponentText tail)
      || (isSexagesimal whole && tail.isEmpty)
      || (whole.isEmpty && !signed && fraction.head?.any isAsciiDigit && isExponentText tail)
      || (whole.isEmpty && ["inf", "Inf", "INF"].contains (String.ofList fraction))
      || (whole.isEmpty && !signed && ["nan", "NaN", "NAN"].contains (String.ofList fraction))

/-- The date and time that a text spells, digit by digit. -/
structure TimestampText where
  year : List Char
  month : List Char
  day : List Char
  /-- Hour, minute, second and fraction. -/
  time : Option (List Char × List Char × List Char × List Char) := none
  /-- Whether a zone is given, and its sign, hours and minutes if it is no name. -/
  zone : Option (Option (Char × List Char × List Char)) := none

/-- One or two digits in front, and what follows. -/
def shortNumber? (text : List Char) : Option (List Char × List Char) :=
  match text with
  | a :: b :: rest =>
    if isAsciiDigit a && isAsciiDigit b then some ([a, b], rest)
    else if isAsciiDigit a then some ([a], b :: rest) else none
  | [a] => if isAsciiDigit a then some ([a], []) else none
  | [] => none

/-- Exactly two digits in front, and what follows. -/
def pair? (text : List Char) : Option (List Char × List Char) :=
  match text with
  | a :: b :: rest => if isAsciiDigit a && isAsciiDigit b then some ([a, b], rest) else none
  | _ => none

def sign? (sign : Char) : List Char → Option (List Char)
  | c :: rest => if c == sign then some rest else none
  | [] => none

/-- A zone at the end of a time. -/
def zone? (text : List Char) : Option (Option (Option (Char × List Char × List Char))) :=
  match text.dropWhile fun c => c == ' ' || c == '\t' with
  | [] => if text.isEmpty then some none else none
  | ['Z'] => some (some none)
  | c :: rest =>
    if c == '+' || c == '-' then do
      let (hours, rest) ← shortNumber? rest
      match rest with
      | [] => some (some (some (c, hours, [])))
      | ':' :: rest =>
        let (minutes, rest) ← pair? rest
        if rest.isEmpty then some (some (some (c, hours, minutes))) else none
      | _ => none
    else none

/-- Hours, minutes, seconds, a fraction and a zone. -/
def clock? (stamp : TimestampText) (text : List Char) : Option TimestampText := do
  let (hour, rest) ← shortNumber? text
  let (minute, rest) ← pair? (← sign? ':' rest)
  let (second, rest) ← pair? (← sign? ':' rest)
  let (fraction, rest) :=
    match rest with
    | '.' :: rest => (rest.takeWhile isAsciiDigit, rest.dropWhile isAsciiDigit)
    | rest => ([], rest)
  let zone ← zone? rest
  return { stamp with time := some (hour, minute, second, fraction), zone }

/-- A date, or a date and a time behind a letter or white space. -/
def timestamp? (text : List Char) : Option TimestampText := do
  let year := text.take 4
  if year.length == 4 && year.all isAsciiDigit then
    let (month, rest) ← shortNumber? (← sign? '-' (text.drop 4))
    let (day, rest) ← shortNumber? (← sign? '-' rest)
    let stamp : TimestampText := { year, month, day }
    match rest with
    | [] => some stamp
    | c :: after =>
      if c == 'T' || c == 't' then clock? stamp after
      else
        let time := rest.dropWhile fun c => c == ' ' || c == '\t'
        if time.length == rest.length then none else clock? stamp time
  else none

/-- A date alone needs two digits for month and day. -/
def isTimestampText (text : List Char) : Bool :=
  match timestamp? text with
  | some stamp => stamp.time.isSome || (stamp.month.length == 2 && stamp.day.length == 2)
  | none => false

/-- The tag that a single line looks like. -/
def resolveLine (text : String) : String :=
  let chars := text.toList
  if isBoolText text then coreTag "bool"
  else if isFloatText chars then coreTag "float"
  else if isIntText chars then coreTag "int"
  else if text == "<<" then coreTag "merge"
  else if isNullText text then coreTag "null"
  else if isTimestampText chars then coreTag "timestamp"
  else if text == "=" then coreTag "value"
  else if ["!", "&", "*"].contains text then coreTag "yaml"
  else coreTag "str"

/-- The tag of a scalar without one; a line break at its end does not count. -/
def resolve (text : String) : String :=
  match dropEnd? ['\n'] text.toList with
  | some (c :: rest) => resolveLine (String.ofList (c :: rest))
  | _ => resolveLine text

end LayeredConfig.Yaml
