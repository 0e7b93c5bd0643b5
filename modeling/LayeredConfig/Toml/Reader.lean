import LayeredConfig.Toml.Scalar

/-!
# TOML values and keys in text

Reading keys, arrays and inline tables. Arrays may stretch over lines and hold comments; inline
tables may not. A table or an array inside an inline table cannot be extended by a later key of it.
-/

namespace LayeredConfig.Toml

open Text

/-! ## Keys -/

/-- A character of a key without quotes. -/
def isBareKeyChar (c : Char) : Bool :=
  isAsciiDigit c || ('a' ≤ c && c ≤ 'z') || ('A' ≤ c && c ≤ 'Z') || c == '-' || c == '_'

/-- One part of a key. -/
def keyPart (text : List Char) : Parsed String :=
  match text.takeWhile isBareKeyChar with
  | [] => (lineString text).map fun (part, rest) => (String.ofList part, rest)
  | part => .ok (String.ofList part, text.dropWhile isBareKeyChar)

/-- The parts of a key between points, and the text behind the key and the white space after it. -/
def key (text : List Char) : Parsed (List String) :=
  match keyPart text with
  | .error fault => .error fault
  | .ok (part, left) =>
    match left.dropWhile isSpace with
    | '.' :: rest =>
      let next := rest.dropWhile isSpace
      if _h : next.length < text.length then
        (key next).map fun (parts, rest) => (part :: parts, rest)
      else .error .malformed
    | rest => .ok ([part], rest)
termination_by text.length

/-! ## Comments -/

/-- What follows a comment that may stand here. -/
def skipComment : List Char → Except ReadFault (List Char)
  | '#' :: rest =>
    if (rest.takeWhile (· != '\n')).all (isPlain false) then .ok (rest.dropWhile (· != '\n'))
    else .error .malformed
  | text => .ok text

/-- What follows white space, line breaks and comments. -/
def skipLines (text : List Char) : Except ReadFault (List Char) :=
  match skipComment (text.dropWhile isSpaceOrBreak) with
  | .error fault => .error fault
  | .ok rest => if _h : rest.length < text.length then skipLines rest else .ok rest
termination_by text.length

/-! ## Values -/

/-- The parents of a key with its last part. -/
def splitLast (path : List String) : List String × String := (path.dropLast, path.getLast?.getD "")

/-- An inline table while it is read: its entries and the keys that cannot be extended. -/
structure InlineTable where
  entries : Entries Toml := []
  closed : List (List String) := []

/-- Adds a key; none of its parents may be closed. -/
def InlineTable.add (path : List String) (value : Toml) (inline : InlineTable) :
    Except ReadFault InlineTable :=
  if inline.closed.any (·.isPrefixOf path) then .error .malformed
  else
    let (parents, last) := splitLast path
    match alterAt false (insertNew last value) parents inline.entries with
    | none => .error .malformed
    | some entries =>
      .ok { entries, closed := if value.isContainer then path :: inline.closed else inline.closed }

mutual

def value (text : List Char) : Parsed Toml :=
  match text with
  | '"' :: _ | '\'' :: _ =>
    (anyString text).map fun (found, rest) => (.string (String.ofList found), rest)
  | 't' :: 'r' :: 'u' :: 'e' :: rest => .ok (.bool true, rest)
  | 'f' :: 'a' :: 'l' :: 's' :: 'e' :: rest => .ok (.bool false, rest)
  | '[' :: rest =>
    match skipLines rest with
    | .error fault => .error fault
    | .ok left =>
      if _h : left.length ≤ rest.length then
        (items left).map fun (found, rest) => (.array found, rest)
      else .error .malformed
  | '\x7b' :: rest =>
    match rest.dropWhile isSpace with
    | '\x7d' :: rest => .ok (.table [], rest)
    | left =>
      if _h : left.length ≤ rest.length then
        (inlineEntries {} left).map fun (found, rest) => (.table found, rest)
      else .error .malformed
  | text => timeOrNumber text
termination_by (text.length, 0)

/-- The items of an array up to its end. -/
def items (text : List Char) : Parsed (List Toml) :=
  match text with
  | ']' :: rest => .ok ([], rest)
  | text =>
    match value text with
    | .error fault => .error fault
    | .ok (first, left) =>
      match skipLines left with
      | .error fault => .error fault
      | .ok (']' :: rest) => .ok ([first], rest)
      | .ok (',' :: rest) =>
        match skipLines rest with
        | .error fault => .error fault
        | .ok next =>
          if _h : next.length < text.length then
            (items next).map fun (others, rest) => (first :: others, rest)
          else .error .malformed
      | .ok _ => .error .malformed
termination_by (text.length, 1)

/-- The entries of an inline table up to its end. -/
def inlineEntries (inline : InlineTable) (text : List Char) : Parsed (Entries Toml) :=
  match key text with
  | .error fault => .error fault
  | .ok (path, '=' :: rest) =>
    if _h : (rest.dropWhile isSpace).length < text.length then
      match value (rest.dropWhile isSpace) with
      | .error fault => .error fault
      | .ok (found, left) =>
        match inline.add path found with
        | .error fault => .error fault
        | .ok inline =>
          match left.dropWhile isSpace with
          | '\x7d' :: rest => .ok (inline.entries, rest)
          | ',' :: rest =>
            let next := rest.dropWhile isSpace
            if _h : next.length < text.length then inlineEntries inline next else .error .malformed
          | _ => .error .malformed
    else .error .malformed
  | .ok _ => .error .malformed
termination_by (text.length, 1)

end

end LayeredConfig.Toml
