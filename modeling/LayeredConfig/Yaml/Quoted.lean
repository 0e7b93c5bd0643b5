import LayeredConfig.Text.Classes
import LayeredConfig.Yaml.Plain
import LayeredConfig.Yaml.ReadFault

/-!
# Quoted scalars

Scalars in single quotes, where a quote is written twice, and in double quotes, where a backslash
starts an escape. Line breaks are folded in both; an escaped line break vanishes.
-/

namespace LayeredConfig.Yaml

/-- Characters with an escape of one letter. -/
def escapes : List (Char × Char) :=
  [('0', '\x00'), ('a', '\x07'), ('b', '\x08'), ('t', '\t'), ('\t', '\t'), ('n', '\n'),
   ('v', '\x0b'), ('f', '\x0c'), ('r', '\r'), ('e', '\x1b'), (' ', ' '), ('"', '"'), ('\\', '\\'),
   ('/', '/'), ('N', '\x85'), ('_', '\u00a0'), ('L', '\u2028'), ('P', '\u2029')]

/-- The number of hexadecimal digits behind the letter of an escape. -/
def escapeWidth : Char → Option Nat
  | 'x' => some 2
  | 'u' => some 4
  | 'U' => some 8
  | _ => none

/-- The line breaks in front of the next text of a quoted scalar. -/
def quotedBreaks (text : List Char) : Except ReadFault (List Char × List Char) :=
  if startsSeparator text then .error .malformed
  else
    let rest := text.dropWhile fun c => c == ' ' || c == '\t'
    match _h : takeBreak? rest with
    | none => .ok ([], rest)
    | some (c, after) =>
      match quotedBreaks after with
      | .ok (breaks, left) => .ok (c :: breaks, left)
      | .error fault => .error fault
termination_by text.length
decreasing_by
  have := takeBreak?_length _h
  have hle : rest.length ≤ text.length := (List.dropWhile_suffix _).length_le
  omega

/-- White space inside quotes: kept within a line, folded across lines. -/
def quotedGap (text : List Char) : Except ReadFault (List Char × List Char) :=
  let blanks := text.takeWhile fun c => c == ' ' || c == '\t'
  let rest := text.dropWhile fun c => c == ' ' || c == '\t'
  match takeBreak? rest with
  | none => .ok (blanks, rest)
  | some (first, after) =>
    match quotedBreaks after with
    | .ok (breaks, left) => .ok (foldBreaks first breaks, left)
    | .error fault => .error fault

/-- An escape behind its backslash. -/
def quotedEscape (text : List Char) : Except ReadFault (List Char × List Char) :=
  match text with
  | [] => .error .malformed
  | c :: rest =>
    match escapes.lookup c with
    | some replacement => .ok ([replacement], rest)
    | none =>
      match escapeWidth c with
      | some width =>
        let digits := rest.take width
        if digits.length == width && digits.all fun d => (Text.hexValue? d).isSome then
          let code := Text.valueInBase 16 digits
          if 0x80000000 ≤ code then .error (.noSuchValue .outOfRange)
          else if 0x110000 ≤ code then .error (.noSuchValue .wrongValue)
          else .ok ([(Text.charOfCode? code).getD '\uFFFD'], rest.drop width)
        else .error .malformed
      | none =>
        match takeBreak? (c :: rest) with
        | some (_, after) => quotedBreaks after
        | none => .error .malformed

/-- The next piece of a quoted scalar that starts with the given character; nothing at its end. -/
def quotedPiece (double : Bool) (c : Char) (rest : List Char) :
    Except ReadFault (Option (List Char × List Char)) :=
  if !double && c == '\'' && rest.head? == some '\'' then .ok (some (['\''], rest.drop 1))
  else if c == (if double then '"' else '\'') then .ok none
  else if double && c == '\\' then (quotedEscape rest).map some
  else if isGap c then (quotedGap (c :: rest)).map some
  else .ok (some ([c], rest))

/-- The text up to the closing quote, read behind the opening one, and what follows. -/
def quotedScalar (double : Bool) (text : List Char) : Except ReadFault (List Char × List Char) :=
  match text with
  | [] => .error .malformed
  | c :: rest =>
    match quotedPiece double c rest with
    | .error fault => .error fault
    | .ok none => .ok ([], rest)
    | .ok (some (piece, after)) =>
      if _h : after.length ≤ rest.length then
        match quotedScalar double after with
        | .ok (body, left) => .ok (piece ++ body, left)
        | .error fault => .error fault
      else .error .malformed
termination_by text.length

end LayeredConfig.Yaml
