/-!
# Continued lines

A text in double quotes is cut into lines of a given width, all but the last of which end in a
backslash. A cut comes behind a space where the second half of a line has one, and never separates
a backslash from the character it escapes.
-/

namespace LayeredConfig.Commented

/-- The number of backslashes at the end of a text. -/
def endingBackslashes (text : List Char) : Nat := (text.reverse.takeWhile (· == '\\')).length

/-- The place of the last space in the second half of the first `limit + 1` characters. -/
def lastSpace? (limit : Nat) (text : List Char) : Option Nat :=
  (List.range' (limit / 2 + 1) (limit - limit / 2)).reverse.find? fun i => text[i]? == some ' '

/-- The nearest place at or before `place` that splits no escape; a piece has one character at
least. -/
def backOff (text : List Char) : (place : Nat) → Nat
  | 0 => 0
  | 1 => 1
  | place + 2 =>
    if endingBackslashes (text.take (place + 2)) % 2 == 1 then backOff text (place + 1)
    else place + 2

/-- The number of characters that the first line takes. -/
def firstCut (width : Nat) (text : List Char) : Nat :=
  if text.length ≤ width then text.length
  else
    let limit := max (width - 1) 1
    match lastSpace? limit text with
    | some place => place + 1
    | none => backOff text limit

theorem backOff_pos {text : List Char} {place : Nat} (h : 0 < place) : 0 < backOff text place := by
  fun_induction backOff text place with
  | case1 => omega
  | case2 => omega
  | case3 place _ ih => exact ih (by omega)
  | case4 => omega

theorem firstCut_pos {width : Nat} {text : List Char} (h : text ≠ []) :
    0 < firstCut width text := by
  unfold firstCut
  split
  · exact List.length_pos_iff.mpr h
  · dsimp only
    split
    · omega
    · exact backOff_pos (by omega)

/-- The lines of a text, each but the last with a backslash at its end. -/
def cutLines (width : Nat) (text : List Char) : List (List Char) :=
  if _h : text.length ≤ firstCut width text then [text]
  else
    (text.take (firstCut width text) ++ ['\\']) :: cutLines width (text.drop (firstCut width text))
termination_by text.length
decreasing_by
  have : text ≠ [] := by
    intro h
    simp [h] at _h
  have := @firstCut_pos width text this
  simp only [List.length_drop]
  omega

/-- A text in double quotes, put around it unless it starts with one. -/
def inQuotes (text : List Char) : List Char :=
  if text.head? == some '"' then text else '"' :: text ++ ['"']

/-- A text in double quotes as lines of the given width; without a positive width it is one line. -/
def chunk (text : String) (width : Int) : List String :=
  let quoted := inQuotes text.toList
  if width ≤ 0 then [String.ofList quoted] else (cutLines width.toNat quoted).map String.ofList

end LayeredConfig.Commented
