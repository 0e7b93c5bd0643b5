import LayeredConfig.Yaml.Position
import LayeredConfig.Yaml.Resolve

/-!
# Styles of scalars

A scalar is written as it is where it reads back that way, in single quotes where these suffice, and
otherwise in double quotes.
-/

namespace LayeredConfig.Yaml

inductive ScalarStyle
  | plain
  | single
  | double
  deriving DecidableEq, Repr

namespace ScalarStyle

/-- A character that ends a line in a scalar; a carriage return is escaped instead. -/
def isLineEnd (c : Char) : Bool := c == '\n' || c == '\x85' || c == '\u2028' || c == '\u2029'

/-- A character that needs no escape. -/
def isCommon (c : Char) : Bool :=
  c == '\n' || (' ' ≤ c && c ≤ '~') || c == '\x85'
    || (0xA0 ≤ c.toNat && c.toNat < 0x10FFFF && c.toNat ≠ 0xFFFE && c.toNat ≠ 0xFFFF
      && c != '\uFEFF')

/-- Whether white space follows, or nothing. -/
def gapFollows (rest : List Char) : Bool := rest.head?.all fun c => isGap c || c == '\x00'

/-- Whether a sign of structure appears behind the first character. -/
def hasInnerSign (afterGap : Bool) : List Char → Bool
  | [] => false
  | c :: rest =>
    (c == ':' && gapFollows rest) || (c == '#' && afterGap)
      || hasInnerSign (isGap c || c == '\x00') rest

/-- Whether a text contains what would be read as structure. -/
def hasSign (text : List Char) : Bool :=
  match text with
  | [] => false
  | c :: rest =>
    "---".toList.isPrefixOf text || "...".toList.isPrefixOf text
      || "#,[]\x7b\x7d&*!|>'\"%@\x60".toList.contains c
      || ((c == '?' || c == ':' || c == '-') && gapFollows rest)
      || hasInnerSign (isGap c || c == '\x00') rest

/-- Whether one kind of character comes right before another. -/
def hasPair (p q : Char → Bool) : List Char → Bool
  | a :: b :: rest => (p a && q b) || hasPair p q (b :: rest)
  | _ => false

/-- White space that lines would lose: before a line end, or characters that need an escape. -/
def needsEscape (text : List Char) : Bool :=
  hasPair (· == ' ') isLineEnd text || !text.all isCommon

def isMultiline (text : List Char) : Bool := text.any isLineEnd

/-- Whether a text can stand without quotes, as far as its characters go. -/
def allowsPlain (text : List Char) : Bool :=
  !hasSign text && !needsEscape text && !isMultiline text
    && text.head? != some ' ' && text.getLast? != some ' '

/-- Whether a text can stand between single quotes. -/
def allowsSingle (text : List Char) : Bool :=
  !needsEscape text && !hasPair isLineEnd (· == ' ') text

/-- The style of a tagged scalar; a key before its colon cannot be empty or have several lines. -/
def choose (tag : String) (isKey : Bool) (text : String) : ScalarStyle :=
  let chars := text.toList
  if resolve text == tag && allowsPlain chars && !(isKey && chars.isEmpty) then plain
  else if allowsSingle chars && !(isKey && isMultiline chars) then single
  else double

end ScalarStyle

end LayeredConfig.Yaml
