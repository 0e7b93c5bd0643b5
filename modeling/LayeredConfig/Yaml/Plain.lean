import LayeredConfig.Yaml.Position

/-!
# Plain scalars

Scalars without quotes. They end at a comment, at a colon before a gap, inside flow collections at
the signs of these, and at a line that is indented too little. Line breaks between words are folded.
-/

namespace LayeredConfig.Yaml

/-- Whether a plain word ends before the given text. -/
def endsWord (flow : Bool) : List Char → Bool
  | [] => true
  | c :: rest =>
    isGap c
      || (c == ':' &&
        (startsGap rest || (flow && rest.head?.any (",[]\x7b\x7d".toList.contains ·))))
      || (flow && ",?[]\x7b\x7d".toList.contains c)

/-- The characters up to the end of a word, and what follows. -/
def plainWord (flow : Bool) : List Char → List Char × List Char
  | [] => ([], [])
  | c :: rest =>
    if endsWord flow (c :: rest) then ([], c :: rest)
    else
      let (word, after) := plainWord flow rest
      (c :: word, after)

/-- What stands between the words of a plain scalar. -/
structure PlainGap where
  /-- The folded white space; nothing if the scalar cannot go on. -/
  folded : List Char
  /-- Whether a line ended. -/
  crossed : Bool
  /-- The column after the gap when a line ended. -/
  column : Nat
  rest : List Char

/-- Blank lines behind a line break: their breaks, the indentation, the rest, or a separator. -/
def plainBlankLines (breaks : List Char) (column : Nat) (text : List Char) :
    Option (List Char) × Nat × List Char :=
  match text with
  | ' ' :: rest => plainBlankLines breaks (column + 1) rest
  | text =>
    match _h : takeBreak? text with
    | some (c, rest) =>
      if startsSeparator rest then (none, 0, rest) else plainBlankLines (breaks ++ [c]) 0 rest
    | none => (some breaks, column, text)
termination_by text.length
decreasing_by
  · simp
  · exact takeBreak?_length _h

/-- A line break followed by further ones: alone it is a space. -/
def foldBreaks (first : Char) (others : List Char) : List Char :=
  if first != '\n' then first :: others
  else if others.isEmpty then [' '] else others

def plainGap (text : List Char) : PlainGap :=
  let blanks := text.takeWhile (· == ' ')
  let rest := text.dropWhile (· == ' ')
  match takeBreak? rest with
  | some (first, after) =>
    if startsSeparator after then ⟨[], true, 0, after⟩
    else
      match plainBlankLines [] 0 after with
      | (some breaks, column, left) => ⟨foldBreaks first breaks, true, column, left⟩
      | (none, column, left) => ⟨[], true, column, left⟩
  | none => ⟨blanks, false, 0, rest⟩

/-- A plain scalar: its text, whether its last gap ended a line, and what follows. -/
structure PlainScalar where
  text : List Char
  crossed : Bool
  rest : List Char

/-- The words of a plain scalar; in block context further lines need at least `indent` columns. -/
def plainScalar (flow : Bool) (indent : Int) (text : List Char) : PlainScalar :=
  let word := plainWord flow text
  let gap := plainGap word.2
  if gap.folded.isEmpty || gap.rest.head? == some '#'
      || (!flow && gap.crossed && gap.column < indent)
      || endsWord flow gap.rest then
    ⟨word.1, gap.crossed, gap.rest⟩
  else if _h : gap.rest.length < text.length then
    let more := plainScalar flow indent gap.rest
    ⟨word.1 ++ gap.folded ++ more.text, more.crossed, more.rest⟩
  else ⟨word.1, gap.crossed, gap.rest⟩
termination_by text.length

end LayeredConfig.Yaml
