import LayeredConfig.Text.Classes
import LayeredConfig.Text.Utf8
import LayeredConfig.Yaml.Block
import LayeredConfig.Yaml.Token

/-!
# Anchors, tags and directives

The short tokens that say something about a node or a document.
-/

namespace LayeredConfig.Yaml

open Text

/-- A letter, a digit, a hyphen or an underscore. -/
def isWordChar (c : Char) : Bool :=
  isAsciiDigit c || ('A' ≤ c && c ≤ 'Z') || ('a' ≤ c && c ≤ 'z') || c == '-' || c == '_'

/-- The name of an anchor or an alias, behind its sign. -/
def anchorName (text : List Char) : Except ReadFault (String × List Char) :=
  let name := text.takeWhile isWordChar
  let rest := text.dropWhile isWordChar
  if name.isEmpty || !(startsGap rest || rest.head?.any ("?:,]\x7d%@`".toList.contains ·)) then
    .error .malformed
  else .ok (String.ofList name, rest)

/-- The handle of a tag: one sign alone, or a word between two signs. -/
def tagHandle (text : List Char) : Except ReadFault (String × List Char) :=
  match text with
  | '!' :: ' ' :: rest => .ok ("!", ' ' :: rest)
  | '!' :: rest =>
    let word := rest.takeWhile isWordChar
    match rest.dropWhile isWordChar with
    | '!' :: after => .ok (String.ofList ('!' :: word ++ ['!']), after)
    | _ => .error .malformed
  | _ => .error .malformed

/-- A character that may stand in a tag as it is. -/
def isTagChar (c : Char) : Bool :=
  isAsciiDigit c || ('A' ≤ c && c ≤ 'Z') || ('a' ≤ c && c ≤ 'z')
    || "-;/?:@&=+$,_.!~*'()[]".toList.contains c

/-- Bytes written in hexadecimal behind percent signs. -/
def escapedBytes : List Char → Except ReadFault (List UInt8 × List Char)
  | '%' :: a :: b :: rest =>
    if (hexValue? a).isSome && (hexValue? b).isSome then
      match escapedBytes rest with
      | .ok (bytes, after) => .ok ((valueInBase 16 [a, b]).toUInt8 :: bytes, after)
      | .error fault => .error fault
    else .error .malformed
  | '%' :: _ => .error .malformed
  | text => .ok ([], text)

/-- The characters of a tag. -/
def tagChars (text : List Char) : Except ReadFault (List Char × List Char) :=
  match text with
  | [] => .ok ([], [])
  | '%' :: rest =>
    match escapedBytes ('%' :: rest) with
    | .error fault => .error fault
    | .ok (bytes, after) =>
      match ofBytes? bytes with
      | none => .error .malformed
      | some piece =>
        if _h : after.length ≤ rest.length then
          match tagChars after with
          | .ok (more, left) => .ok (piece.toList ++ more, left)
          | .error fault => .error fault
        else .error .malformed
  | c :: rest =>
    if isTagChar c then
      match tagChars rest with
      | .ok (more, left) => .ok (c :: more, left)
      | .error fault => .error fault
    else .ok ([], c :: rest)
termination_by text.length

/-- The characters of a tag, of which there is at least one. -/
def tagText (text : List Char) : Except ReadFault (String × List Char) :=
  match tagChars text with
  | .ok (chars, rest) =>
    if rest.length == text.length then .error .malformed else .ok (String.ofList chars, rest)
  | .error fault => .error fault

/-- Whether another sign follows within a word, which makes the first part a handle. -/
def hasHandle (text : List Char) : Bool :=
  (text.takeWhile fun c => c != ' ' && !isBreak c).contains '!'

/-- A tag behind its first sign. -/
def tagToken (text : List Char) : Except ReadFault (Token × List Char) := do
  let (token, rest) ←
    match text with
    | '<' :: rest => do
      let (suffix, rest) ← tagText rest
      match rest with
      | '>' :: after => pure (.tag none suffix, after)
      | _ => .error .malformed
    | rest =>
      if startsGap rest then pure (.tag none "!", rest)
      else if hasHandle rest then do
        let (handle, rest) ← tagHandle ('!' :: rest)
        let (suffix, rest) ← tagText rest
        pure (.tag (some handle) suffix, rest)
      else do
        let (suffix, rest) ← tagText rest
        pure (.tag (some "!") suffix, rest)
  if startsSpace rest then return (token, rest) else .error .malformed

/-- A number and what follows it. -/
def versionNumber (text : List Char) : Except ReadFault (Nat × List Char) :=
  let digits := text.takeWhile isAsciiDigit
  if digits.isEmpty then .error .malformed
  else .ok (digitsValue digits, text.dropWhile isAsciiDigit)

def versionDirective (text : List Char) : Except ReadFault (Token × List Char) := do
  let (major, rest) ← versionNumber (text.dropWhile (· == ' '))
  match rest with
  | '.' :: rest =>
    let (_, rest) ← versionNumber rest
    if startsSpace rest then return (.version major, rest) else .error .malformed
  | _ => .error .malformed

def handleDirective (text : List Char) : Except ReadFault (Token × List Char) := do
  let (name, rest) ← tagHandle (text.dropWhile (· == ' '))
  if rest.head? == some ' ' then
    let (start, rest) ← tagText (rest.dropWhile (· == ' '))
    if startsSpace rest then return (.handle name start, rest) else .error .malformed
  else .error .malformed

/-- A directive behind its sign; its token ends before the rest of the line. -/
def directiveToken (text : List Char) : Except ReadFault (Token × List Char) := do
  let name := String.ofList (text.takeWhile isWordChar)
  let rest := text.dropWhile isWordChar
  if name.isEmpty || !startsSpace rest then .error .malformed
  else
    let (token, rest) ←
      if name == "YAML" then versionDirective rest
      else if name == "TAG" then handleDirective rest
      else pure (.otherDirective, rest.dropWhile (!isBreak ·))
    return (token, ← restOfLine rest)

end LayeredConfig.Yaml
