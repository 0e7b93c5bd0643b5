/-!
# Finding and splitting

Cutting a text at the occurrences of another one, from left to right and without overlaps.
-/

namespace LayeredConfig.Text

/-- What stands before and after the first occurrence of `mark`. -/
def cut? (mark : List Char) : List Char → Option (List Char × List Char)
  | [] => if mark.isEmpty then some ([], []) else none
  | c :: rest =>
    if mark.isPrefixOf (c :: rest) then some ([], (c :: rest).drop mark.length)
    else (cut? mark rest).map fun (before, after) => (c :: before, after)

theorem cut?_length {mark text before after : List Char}
    (h : cut? mark text = some (before, after)) :
    before.length + mark.length + after.length = text.length := by
  induction text generalizing before after with
  | nil => cases mark <;> simp_all [cut?]
  | cons c rest ih =>
    simp only [cut?] at h
    split at h
    · next hmark =>
      have := (List.isPrefixOf_iff_prefix.mp hmark).length_le
      simp only [Option.some.injEq, Prod.mk.injEq] at h
      obtain ⟨rfl, rfl⟩ := h
      simp only [List.length_nil, List.length_drop]
      omega
    · obtain ⟨⟨b, a⟩, hcut, heq⟩ := Option.map_eq_some_iff.mp h
      have := ih hcut
      simp only [Prod.mk.injEq] at heq
      obtain ⟨rfl, rfl⟩ := heq
      simp only [List.length_cons]
      omega

/-- The pieces between the occurrences of `mark`; an empty mark splits nothing. -/
def splitAll (mark text : List Char) : List (List Char) :=
  if mark.isEmpty then [text]
  else
    match _h : cut? mark text with
    | none => [text]
    | some (before, after) => before :: splitAll mark after
termination_by text.length
decreasing_by
  have := cut?_length _h
  have : mark.length ≠ 0 := by simp_all
  omega

/-- The pieces of a text between the occurrences of a delimiter. -/
def split (delimiter text : String) : List String :=
  (splitAll delimiter.toList text.toList).map String.ofList

/-- Every occurrence of `mark` exchanged for `other`. -/
def replaceAll (mark other text : String) : String :=
  other.intercalate (split mark text)

/-- The text without the given ending, if it has that ending. -/
def dropEnd? (ending text : List Char) : Option (List Char) :=
  if ending.isSuffixOf text then some (text.take (text.length - ending.length)) else none

end LayeredConfig.Text
