/-!
# Positions in YAML text

Lines and columns counted from zero, and the number of characters passed. A carriage return with a
line feed is one line break; a byte-order mark takes up no column.
-/

namespace LayeredConfig.Yaml

structure Position where
  line : Nat := 0
  column : Nat := 0
  index : Nat := 0
  deriving DecidableEq, Repr, Inhabited

/-- A character that ends a line. -/
def isBreak (c : Char) : Bool :=
  c == '\n' || c == '\r' || c == '\x85' || c == '\u2028' || c == '\u2029'

/-- White space within a line, or its end. -/
def isGap (c : Char) : Bool := c == ' ' || c == '\t' || isBreak c

/-- Whether a text starts with white space or is at its end. -/
def startsGap : List Char → Bool
  | [] => true
  | c :: _ => isGap c

/-- Whether a text starts with a space or a line break, or is at its end; a tab is neither. -/
def startsSpace : List Char → Bool
  | [] => true
  | c :: _ => c == ' ' || isBreak c

/-- A line break as it counts in a scalar, and what follows it. -/
def takeBreak? : List Char → Option (Char × List Char)
  | '\r' :: '\n' :: rest => some ('\n', rest)
  | c :: rest =>
    if c == '\n' || c == '\r' || c == '\x85' then some ('\n', rest)
    else if c == '\u2028' || c == '\u2029' then some (c, rest)
    else none
  | [] => none

theorem takeBreak?_length {text rest : List Char} {c : Char}
    (h : takeBreak? text = some (c, rest)) :
    rest.length < text.length := by
  unfold takeBreak? at h
  split at h
  · simp only [Option.some.injEq, Prod.mk.injEq] at h
    obtain ⟨_, rfl⟩ := h
    simp only [List.length_cons]
    omega
  · split at h
    · simp only [Option.some.injEq, Prod.mk.injEq] at h
      obtain ⟨_, rfl⟩ := h
      simp
    · split at h
      · simp only [Option.some.injEq, Prod.mk.injEq] at h
        obtain ⟨_, rfl⟩ := h
        simp
      · simp at h
  · simp at h

namespace Position

/-- The position behind a character, where `next` is the one that follows. -/
def step (position : Position) (c : Char) (next : Option Char) : Position :=
  if isBreak c && !(c == '\r' && next == some '\n') then
    ⟨position.line + 1, 0, position.index + 1⟩
  else if c == '\uFEFF' then ⟨position.line, position.column, position.index + 1⟩
  else ⟨position.line, position.column + 1, position.index + 1⟩

/-- The position behind the first characters of a text. -/
def after (position : Position) : Nat → List Char → Position
  | 0, _ => position
  | _, [] => position
  | count + 1, c :: rest => after (position.step c rest.head?) count rest

/-- The position of a rest of a text. -/
def behind (position : Position) (text rest : List Char) : Position :=
  position.after (text.length - rest.length) text

end Position

/-- Whether a line starts with a document separator: three equal signs of it and a gap. -/
def startsSeparator : List Char → Bool
  | '-' :: '-' :: '-' :: rest => startsGap rest
  | '.' :: '.' :: '.' :: rest => startsGap rest
  | _ => false

end LayeredConfig.Yaml
