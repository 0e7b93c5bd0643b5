import LayeredConfig.Commented.Chunks
import LayeredConfig.Text.Casing
import LayeredConfig.Text.Quoted
import LayeredConfig.Text.Trim
import LayeredConfig.Yaml.Resolve

/-!
# Forms of values

How a text is written as the value of a key so that it reads back as a text. The forms are tried in
turn: without quotes, in single quotes, as white space in double quotes, in double quotes for white
space at the ends, as a literal block, as a folded block, and in double quotes otherwise. A form is
refused when the text does not admit it or when it does not fit the width.
-/

namespace LayeredConfig.Commented

open Text

/-- The sign in front of a block of lines. -/
inductive BlockSign
  /-- Lines as they are, with a line break at the end. -/
  | literal
  /-- Lines as they are, without a line break at the end. -/
  | literalStripped
  /-- Lines joined by spaces. -/
  | folded
  deriving DecidableEq, Repr

def BlockSign.toText : BlockSign → String
  | literal => "|"
  | literalStripped => "|-"
  | folded => ">-"

instance : ToString BlockSign := ⟨BlockSign.toText⟩

/-- The lines of a value and the sign in front of them, if they form a block. -/
structure ValueForm where
  lines : List String
  sign : Option BlockSign := none
  deriving DecidableEq, Repr

/-! ## Properties of texts -/

/-- Words that stand for something else than themselves, in any case of letters. -/
def keywords : List String :=
  ["null", "true", "false", "~", ".inf", "-.inf", ".nan", "yes", "no", "on", "off"]

def isKeyword (text : String) : Bool := keywords.contains (lower text)

/-- Whether a text starts like a number with a point or an exponent. -/
def startsNumber (text : List Char) : Bool :=
  match Yaml.unsigned text with
  | '.' :: c :: _ => isDecimalDigit c
  | c :: _ => isDecimalDigit c
  | [] => false

/-- Digits under an optional sign, or a text with a point that starts like a number. -/
def isNumeric (text : List Char) : Bool :=
  let body := Yaml.unsigned text
  (!body.isEmpty && body.all isAnyDigit) || (text.contains '.' && startsNumber text)

/-- A control character other than a line feed or a tab. -/
def isControl (c : Char) : Bool := c != '\n' && c != '\t' && isAscii c && !isPrintable c

def isSpecial (c : Char) : Bool := isControl c || "#&*!|'\"%@\x60".toList.contains c

/-- Whether a text contains something that could be read as structure, or an escape. -/
def hasSpecial (text : List Char) : Bool :=
  text.any isSpecial || text.contains '\\' || hasColonSpace text
where
  hasColonSpace : List Char → Bool
    | ':' :: ' ' :: _ => true
    | _ :: rest => hasColonSpace rest
    | [] => false

/-- White space at one end of a text; line feeds do not count. -/
def hasOuterSpace (text : List Char) : Bool :=
  let isOuter (c : Option Char) : Bool := c.any fun c => c != '\n' && isBlank c
  isOuter text.head? || isOuter text.getLast?

/-- A character that a text without quotes cannot start with. -/
def isLeadingSign (c : Char) : Bool := "-?:,[]\x7b\x7d>".toList.contains c

/-- Whether a length fits; without a positive width everything fits. -/
def fits (width : Int) (length : Nat) : Bool := width ≤ 0 || length ≤ width

/-! ## The forms -/

namespace ValueForm

def plain? (text : String) (width : Int) : Option ValueForm :=
  let chars := text.toList
  if !chars.isEmpty && !chars.contains '\n' && !hasSpecial chars && !hasOuterSpace chars
      && !isKeyword text && !isNumeric chars && !chars.head?.any isLeadingSign
      && chars.getLast? != some ':' && Yaml.resolve text == Yaml.coreTag "str"
      && fits width chars.length then
    some { lines := [text] }
  else none

def singleQuoted? (text : String) (width : Int) : Option ValueForm :=
  let chars := text.toList
  if !chars.contains '\'' && !chars.contains '\n' && !chars.contains '\t' && !chars.any isControl
      && fits width (chars.length + 2) then
    some { lines := ["'" ++ text ++ "'"] }
  else none

def blank? (text : String) : Option ValueForm :=
  if isAllBlank text.toList then some { lines := ["\"" ++ replaceAll "\n" "\\n" text ++ "\""] }
  else none

/-- The text in double quotes if it needs an escape there, and bare otherwise. -/
def escaped (text : String) : String :=
  let quoted := jsonQuoted text
  if quoted == "\"" ++ text ++ "\"" then text else quoted

def outerSpace? (text : String) (width : Int) : Option ValueForm :=
  let chars := text.toList
  if hasOuterSpace chars && !chars.contains '\n' then some { lines := chunk (escaped text) width }
  else none

def literal? (text : String) : Option ValueForm :=
  let chars := text.toList
  if !chars.contains '\n' || isAllBlank chars then none
  else
    let lines := split "\n" text
    if chars.getLast? == some '\n' then some { lines := lines.dropLast, sign := some .literal }
    else some { lines, sign := some .literalStripped }

/-- Words joined into lines, `current` being the line that is filled up. -/
def fill (width : Nat) (current : List Char) : List (List Char) → List (List Char)
  | [] => [current]
  | word :: rest =>
    if current.length + 1 + word.length ≤ width then fill width (current ++ ' ' :: word) rest
    else current :: fill width word rest

def folded? (text : String) (width : Int) : Option ValueForm :=
  let chars := text.toList
  if fits width chars.length || hasSpecial chars then none
  else
    match words chars with
    | first :: second :: rest =>
      if (first :: second :: rest).any fun word => word.length ≤ width.toNat then
        some
          { lines := (fill width.toNat first (second :: rest)).map String.ofList
            sign := some .folded }
      else none
    | _ => none

def doubleQuoted (text : String) (width : Int) : ValueForm :=
  let quoted := escaped text
  if hasSpecial text.toList || !fits width quoted.length then { lines := chunk quoted width }
  else { lines := [quoted] }

/-- The first form that a text admits within a width. -/
def ofText (text : String) (width : Int) : ValueForm :=
  ((plain? text width).or <| (singleQuoted? text width).or <| (blank? text).or <|
    (outerSpace? text width).or <| (literal? text).or <| folded? text width).getD
      (doubleQuoted text width)

/-- The form of a value; no value at all is one empty line. -/
def of (value : Option String) (width : Int) : ValueForm :=
  match value with
  | none => { lines := [""] }
  | some text => ofText text width

end ValueForm

end LayeredConfig.Commented
