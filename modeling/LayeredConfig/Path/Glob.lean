/-!
# Wildcards

Patterns for one segment of a path: `*` for any text, `?` for any character, and brackets for one
character out of a set, which may be negated and may hold ranges. A bracket that is never closed is
an ordinary character.
-/

namespace LayeredConfig.Path

inductive Wildcard
  | char (c : Char)
  | any
  | star
  /-- One character inside, or outside, of the given ranges. -/
  | oneOf (negated : Bool) (ranges : List (Char × Char))
  deriving DecidableEq, Repr

namespace Wildcard

/-- The ranges in a set: two characters around a hyphen, or one character alone. -/
def rangesOf : List Char → List (Char × Char)
  | low :: '-' :: high :: rest => (low, high) :: rangesOf rest
  | c :: rest => (c, c) :: rangesOf rest
  | [] => []

/-- The inside of a set and what follows its closing bracket; a bracket in front does not close. -/
def setBody? (text : List Char) : Option (List Char × List Char) :=
  let lead := (if text.head? == some '!' then 1 else 0)
  let lead := lead + (if (text.drop lead).head? == some ']' then 1 else 0)
  match (text.drop lead).dropWhile (· != ']') with
  | [] => none
  | _ :: rest => some (text.take lead ++ (text.drop lead).takeWhile (· != ']'), rest)

/-- A set is negated by an exclamation mark in front, or behind a range in front that runs
backwards. -/
def ofSet : List Char → Wildcard
  | '!' :: body => oneOf true (rangesOf body)
  | low :: '-' :: high :: '!' :: body =>
    if high < low then oneOf true (rangesOf body)
    else oneOf false ((low, high) :: rangesOf ('!' :: body))
  | body => oneOf false (rangesOf body)

theorem setBody?_length {text body rest : List Char} (h : setBody? text = some (body, rest)) :
    rest.length < text.length := by
  unfold setBody? at h
  simp only at h
  split at h
  · simp at h
  · next heq =>
    simp only [Option.some.injEq, Prod.mk.injEq] at h
    obtain ⟨_, rfl⟩ := h
    have hdrop := congrArg List.length heq
    have hle := (List.dropWhile_suffix (l := text.drop ((if text.head? == some '!' then 1 else 0) +
      (if (text.drop (if text.head? == some '!' then 1 else 0)).head? == some ']' then 1 else 0)))
      (· != ']')).length_le
    simp only [List.length_cons, List.length_drop] at hdrop hle
    omega

/-- The wildcards of a pattern. -/
def parse (pattern : List Char) : List Wildcard :=
  match pattern with
  | [] => []
  | '*' :: rest => star :: parse rest
  | '?' :: rest => any :: parse rest
  | '[' :: rest =>
    match _h : setBody? rest with
    | some (body, after) => ofSet body :: parse after
    | none => char '[' :: parse rest
  | c :: rest => char c :: parse rest
termination_by pattern.length
decreasing_by
  all_goals try have := setBody?_length _h
  all_goals simp only [List.length_cons]; omega

/-- Whether one character fits a wildcard. -/
def accepts : Wildcard → Char → Bool
  | char c, d => c == d
  | any, _ => true
  | star, _ => true
  | oneOf negated ranges, d => negated != ranges.any fun range => range.1 ≤ d && d ≤ range.2

/-- Whether a whole text fits a pattern. -/
def fits : List Wildcard → List Char → Bool
  | [], text => text.isEmpty
  | star :: rest, [] => fits rest []
  | star :: rest, c :: text => fits rest (c :: text) || fits (star :: rest) text
  | _ :: _, [] => false
  | wildcard :: rest, c :: text => wildcard.accepts c && fits rest text
termination_by pattern text => pattern.length + text.length

end Wildcard

/-- Whether a name fits a pattern without slashes. -/
def matchesPattern (pattern name : String) : Bool :=
  Wildcard.fits (Wildcard.parse pattern.toList) name.toList

end LayeredConfig.Path
