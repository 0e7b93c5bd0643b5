import LayeredConfig.Text.Split
import LayeredConfig.Toml.Reader

/-!
# TOML documents

A document is read statement by statement. A table may be declared once; keys with points declare
the tables on their way, which later headers must not declare again; and what a value defines as a
whole cannot be extended.
-/

namespace LayeredConfig.Toml

open Text

/-- A document while it is read. -/
structure Draft where
  entries : Entries Toml := []
  /-- The table that keys are put into. -/
  header : List String := []
  /-- Tables that must not be declared again. -/
  declared : List (List String) := []
  /-- Tables that count as declared from the next header on. -/
  pending : List (List String) := []
  /-- Values that cannot be extended, nor anything below them. -/
  closed : List (List String) := []

namespace Draft

def isClosed (path : List String) (draft : Draft) : Bool := draft.closed.any (·.isPrefixOf path)

def orMalformed (found : Option (Entries Toml)) : Except ReadFault (Entries Toml) :=
  match found with
  | some entries => .ok entries
  | none => .error .malformed

/-- Starts a table of its own. -/
def openTable (path : List String) (draft : Draft) : Except ReadFault Draft := do
  if draft.declared.contains path || draft.isClosed path then .error .malformed
  else
    let entries ← orMalformed (alterAt true some path draft.entries)
    return { draft with entries, header := path, declared := path :: draft.declared }

/-- Starts the next table of an array; what was declared below the one before is free again. -/
def openItem (path : List String) (draft : Draft) : Except ReadFault Draft := do
  if draft.isClosed path then .error .malformed
  else
    let (parents, last) := splitLast path
    let entries ← orMalformed (alterAt true (appendTable last) parents draft.entries)
    return { draft with
      entries, header := path
      declared := path :: draft.declared.filter fun other => !path.isPrefixOf other
      closed := draft.closed.filter fun other => !path.isPrefixOf other }

/-- The tables that a key with points passes through, from the outermost on. -/
def passed (draft : Draft) (path : List String) : List (List String) :=
  (List.range (path.length - 1)).map fun i => draft.header ++ path.take (i + 1)

/-- Puts a value into the current table. -/
def put (path : List String) (value : Toml) (draft : Draft) : Except ReadFault Draft := do
  let (parents, last) := splitLast path
  let passed := draft.passed path
  if passed.any draft.declared.contains || draft.isClosed (draft.header ++ parents) then
    .error .malformed
  else
    let entries ← orMalformed <|
      alterAt true (insertNew last value) (draft.header ++ parents) draft.entries
    return { draft with
      entries, pending := draft.pending ++ passed
      closed := if value.isContainer then (draft.header ++ path) :: draft.closed else draft.closed }

/-- Declares what was passed through so far. -/
def settle (draft : Draft) : Draft :=
  { draft with declared := draft.pending ++ draft.declared, pending := [] }

/-- A header behind its brackets. -/
def heading (isItem : Bool) (text : List Char) (draft : Draft) :
    Except ReadFault (Draft × List Char) := do
  let (path, rest) ← key (text.dropWhile isSpace)
  let draft ← if isItem then draft.openItem path else draft.openTable path
  match isItem, rest with
  | true, ']' :: ']' :: rest | false, ']' :: rest => .ok (draft, rest)
  | _, _ => .error .malformed

/-- A key with its value. -/
def assignment (text : List Char) (draft : Draft) : Except ReadFault (Draft × List Char) := do
  match ← key text with
  | (path, '=' :: rest) =>
    let (found, rest) ← value (rest.dropWhile isSpace)
    return (← draft.put path found, rest)
  | _ => .error .malformed

/-- What stands at the beginning of a line. -/
def statement (text : List Char) (draft : Draft) : Except ReadFault (Draft × List Char) :=
  match text with
  | '[' :: '[' :: rest => draft.settle.heading true rest
  | '[' :: rest => draft.settle.heading false rest
  | '#' :: _ | '\n' :: _ | [] => .ok (draft, text)
  | c :: _ =>
    if isBareKeyChar c || c == '"' || c == '\'' then draft.assignment text else .error .malformed

/-- All statements of a text, each on lines of its own. -/
def run (draft : Draft) (text : List Char) : Except ReadFault Draft :=
  match draft.statement (text.dropWhile isSpace) with
  | .error fault => .error fault
  | .ok (draft, left) =>
    match skipComment (left.dropWhile isSpace) with
    | .error fault => .error fault
    | .ok [] => .ok draft
    | .ok ('\n' :: rest) =>
      if _h : rest.length < text.length then run draft rest else .error .malformed
    | .ok _ => .error .malformed
termination_by text.length

end Draft

/-- The table that a text spells. -/
def read (text : String) : Except ReadFault (Entries Toml) :=
  (Draft.run {} (replaceAll "\r\n" "\n" text).toList).map (·.entries)

end LayeredConfig.Toml
