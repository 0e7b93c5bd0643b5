import LayeredConfig.Text.Classes
import LayeredConfig.Toml.Basic

/-!
# TOML strings

Literal strings stand as they are; basic strings have escapes. Either kind may stretch over several
lines between three marks, and then drop a line break at its beginning and end in up to two marks of
its own.
-/

namespace LayeredConfig.Toml

open Text

/-- A parsed part of a text with the rest of the text. -/
abbrev Parsed (α : Type) := Except ReadFault (α × List Char)

/-- A control character; of these only a tab may appear. -/
def isControl (c : Char) : Bool := c.toNat < 0x20 || c == '\x7f'

/-- A character that may stand in a string, or a line break in one of several lines. -/
def isPlain (multiline : Bool) (c : Char) : Bool :=
  !isControl c || c == '\t' || (multiline && c == '\n')

def isSpace (c : Char) : Bool := c == ' ' || c == '\t'

def isSpaceOrBreak (c : Char) : Bool := isSpace c || c == '\n'

/-- The characters up to the end of a literal string. -/
def literalBody (multiline : Bool) : List Char → Parsed (List Char)
  | [] => .error .malformed
  | c :: rest =>
    if c == '\'' && (!multiline || "''".toList.isPrefixOf rest) then
      .ok ([], if multiline then rest.drop 2 else rest)
    else if isPlain multiline c then
      (literalBody multiline rest).map fun (body, rest) => (c :: body, rest)
    else .error .malformed

/-- The character with a code of `width` hexadecimal digits. -/
def codedChar (width : Nat) (text : List Char) : Parsed (List Char) :=
  let digits := text.take width
  if digits.length == width && digits.all fun c => (hexValue? c).isSome then
    match charOfCode? (valueInBase 16 digits) with
    | some c => .ok ([c], text.drop width)
    | none => .error .malformed
  else .error .malformed

/-- What stands behind a backslash; before the end of a line it joins lines. -/
def escape (multiline : Bool) : List Char → Parsed (List Char)
  | 'b' :: rest => .ok (['\x08'], rest)
  | 't' :: rest => .ok (['\t'], rest)
  | 'n' :: rest => .ok (['\n'], rest)
  | 'f' :: rest => .ok (['\x0c'], rest)
  | 'r' :: rest => .ok (['\r'], rest)
  | '"' :: rest => .ok (['"'], rest)
  | '\\' :: rest => .ok (['\\'], rest)
  | 'u' :: rest => codedChar 4 rest
  | 'U' :: rest => codedChar 8 rest
  | c :: rest =>
    if multiline && isSpaceOrBreak c then
      match (c :: rest).dropWhile isSpace with
      | [] => .ok ([], [])
      | '\n' :: rest => .ok ([], rest.dropWhile isSpaceOrBreak)
      | _ => .error .malformed
    else .error .malformed
  | [] => .error .malformed

/-- The characters up to the end of a basic string. -/
def basicBody (multiline : Bool) (text : List Char) : Parsed (List Char) :=
  match text with
  | [] => .error .malformed
  | '\\' :: rest =>
    match escape multiline rest with
    | .error fault => .error fault
    | .ok (start, left) =>
      if _h : left.length ≤ rest.length then
        (basicBody multiline left).map fun (body, rest) => (start ++ body, rest)
      else .error .malformed
  | c :: rest =>
    if c == '"' && (!multiline || "\"\"".toList.isPrefixOf rest) then
      .ok ([], if multiline then rest.drop 2 else rest)
    else if c == '"' || isPlain multiline c then
      (basicBody multiline rest).map fun (body, rest) => (c :: body, rest)
    else .error .malformed
termination_by text.length

/-- Up to two more marks at the end of a string of several lines belong to it. -/
def closingMarks (mark : Char) (body : List Char) : List Char → List Char × List Char
  | a :: b :: rest =>
    if a == mark && b == mark then (body ++ [mark, mark], rest)
    else if a == mark then (body ++ [mark], b :: rest)
    else (body, a :: b :: rest)
  | [a] => if a == mark then (body ++ [mark], []) else (body, [a])
  | [] => (body, [])

def dropBreak : List Char → List Char
  | '\n' :: rest => rest
  | text => text

/-- A string on one line, from its opening mark on. -/
def lineString : List Char → Parsed (List Char)
  | '"' :: rest => basicBody false rest
  | '\'' :: rest => literalBody false rest
  | _ => .error .malformed

/-- A string of any kind, from its opening marks on. -/
def anyString : List Char → Parsed (List Char)
  | '"' :: '"' :: '"' :: rest =>
    (basicBody true (dropBreak rest)).map fun (body, rest) => closingMarks '"' body rest
  | '\'' :: '\'' :: '\'' :: rest =>
    (literalBody true (dropBreak rest)).map fun (body, rest) => closingMarks '\'' body rest
  | text => lineString text

end LayeredConfig.Toml
