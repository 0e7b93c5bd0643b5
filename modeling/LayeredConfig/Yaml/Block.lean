import LayeredConfig.Text.Classes
import LayeredConfig.Yaml.Position
import LayeredConfig.Yaml.ReadFault

/-!
# Block scalars

Literal and folded blocks: a header with an indentation and a rule for the final line breaks, then
lines that share an indentation. A folded block joins lines that neither start with white space nor
have blank lines between them.
-/

namespace LayeredConfig.Yaml

/-- What becomes of the line breaks at the end of a block. -/
inductive Chomping
  | clip
  | strip
  | keep
  deriving DecidableEq, Repr

/-- A comment and the end of its line; anything else in the way is an error. -/
def restOfLine (text : List Char) : Except ReadFault (List Char) :=
  let rest := text.dropWhile (· == ' ')
  let rest := if rest.head? == some '#' then rest.dropWhile (!isBreak ·) else rest
  match takeBreak? rest with
  | some (_, after) => .ok after
  | none => if rest.isEmpty then .ok [] else .error .malformed

def chomping? : Char → Option Chomping
  | '+' => some .keep
  | '-' => some .strip
  | _ => none

/-- The signs of a header in either order, and what follows them. -/
def blockHeader (text : List Char) : Except ReadFault (Chomping × Option Nat × List Char) :=
  let (first, rest) :=
    match text with
    | c :: rest => match chomping? c with
      | some chomping => (some chomping, rest)
      | none => (none, text)
    | [] => (none, [])
  let (increment, rest) :=
    match rest with
    | c :: after =>
      if Text.isAsciiDigit c then (some (c.toNat - '0'.toNat), after) else (none, rest)
    | [] => (none, [])
  let (second, rest) :=
    match first, increment, rest with
    | none, some _, c :: after => match chomping? c with
      | some chomping => (some chomping, after)
      | none => (none, rest)
    | _, _, _ => (none, rest)
  if increment == some 0 || !startsSpace rest then .error .malformed
  else .ok ((first.or second).getD .clip, increment, rest)

/-- At most `width` spaces in front of a line: how many there are, and what follows. -/
def takeIndent (width : Nat) (text : List Char) : Nat × List Char :=
  let spaces := (text.takeWhile (· == ' ')).take width
  (spaces.length, text.drop spaces.length)

theorem takeIndent_length (width : Nat) (text : List Char) :
    (takeIndent width text).2.length ≤ text.length := by
  simp [takeIndent]

/-- Blank lines: their breaks, and the indentation of the line behind them. -/
structure BlankLines where
  breaks : List Char
  column : Nat
  rest : List Char

/-- Blank lines of a block with a known indentation. -/
def blankLines (indent : Nat) (text : List Char) : BlankLines :=
  match _h : takeBreak? (takeIndent indent text).2 with
  | none => ⟨[], (takeIndent indent text).1, (takeIndent indent text).2⟩
  | some (c, after) =>
    let more := blankLines indent after
    { more with breaks := c :: more.breaks }
termination_by text.length
decreasing_by
  have := takeBreak?_length _h
  have := takeIndent_length indent text
  omega

/-- Blank lines in front of a block, and the deepest indentation among them and the first line. -/
def leadingLines (text : List Char) : BlankLines × Nat :=
  let column := (text.takeWhile (· == ' ')).length
  let rest := text.dropWhile (· == ' ')
  match _h : takeBreak? rest with
  | none => (⟨[], column, rest⟩, column)
  | some (c, after) =>
    let (more, deepest) := leadingLines after
    ({ more with breaks := c :: more.breaks }, max column deepest)
termination_by text.length
decreasing_by
  have := takeBreak?_length _h
  have hle : rest.length ≤ text.length := (List.dropWhile_suffix _).length_le
  omega

/-- What is left of a block behind a line: the text so far, its last break, and blank lines. -/
structure BlockEnd where
  text : List Char
  lastBreak : List Char
  blank : BlankLines

/-- How a line is joined to the next one. -/
def joint (folded : Bool) (line : List Char) (lineBreak : List Char) (blank : BlankLines) :
    List Char :=
  let startsText (text : List Char) : Bool := text.head? != some ' ' && text.head? != some '\t'
  if folded && lineBreak == ['\n'] && startsText line && startsText blank.rest then
    if blank.breaks.isEmpty then [' '] else []
  else lineBreak

/-- The lines of a block, from one that has the right indentation. -/
def blockLines (folded : Bool) (indent : Nat) (text : List Char) : BlockEnd :=
  let line := text.takeWhile (!isBreak ·)
  let rest := text.dropWhile (!isBreak ·)
  let (lineBreak, after) :=
    match takeBreak? rest with
    | some (c, after) => ([c], after)
    | none => ([], rest)
  let blank := blankLines indent after
  if _h : blank.column = indent ∧ blank.rest ≠ [] ∧ blank.rest.length < text.length then
    let more := blockLines folded indent blank.rest
    { more with text := line ++ joint folded line lineBreak blank ++ blank.breaks ++ more.text }
  else ⟨line, lineBreak, blank⟩
termination_by text.length
decreasing_by exact _h.2.2

/-- The text of a block behind its header; `parent` is the indentation around it. -/
def blockBody (folded : Bool) (parent : Int) (chomping : Chomping) (increment : Option Nat)
    (text : List Char) : List Char × List Char :=
  let least := (max (parent + 1) 1).toNat
  let (blank, indent) :=
    match increment with
    | none =>
      let (blank, deepest) := leadingLines text
      (blank, max least deepest)
    | some extra =>
      let indent := least + extra - 1
      (blankLines indent text, indent)
  let last : BlockEnd :=
    if blank.column = indent ∧ blank.rest ≠ [] then
      let lines := blockLines folded indent blank.rest
      { lines with text := blank.breaks ++ lines.text }
    else ⟨[], [], blank⟩
  let tail :=
    match chomping with
    | .strip => []
    | .clip => last.lastBreak
    | .keep => last.lastBreak ++ last.blank.breaks
  (last.text ++ tail, last.blank.rest)

/-- A block scalar behind its sign: its text, and what follows. -/
def blockScalar (folded : Bool) (parent : Int) (text : List Char) :
    Except ReadFault (List Char × List Char) := do
  let (chomping, increment, rest) ← blockHeader text
  let body ← restOfLine rest
  return blockBody folded parent chomping increment body

end LayeredConfig.Yaml
