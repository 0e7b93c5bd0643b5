import LayeredConfig.Text.Classes
import LayeredConfig.Text.Split
import Mathlib.Data.List.Basic

/-! # Lines

The lines of a text are the pieces between its line breaks. A line carries data unless it is blank
or a comment. Where a text ends with a line break, its data does not mix with what follows. -/

namespace LayeredConfig.Text

/-! ## Runs of characters -/

/-- A row of characters of one kind ends where a character of another kind follows. -/
theorem takeWhile_append_eq {p : Char → Bool} {text rest : List Char}
    (htext : ∀ c ∈ text, p c = true) (hrest : ∀ c ∈ rest.head?, p c = false) :
    (text ++ rest).takeWhile p = text := by
  rw [List.takeWhile_append_of_pos htext]
  cases rest with
  | nil => exact List.append_nil text
  | cons c rest =>
      rw [List.takeWhile_cons_of_neg (by simp [hrest c rfl]), List.append_nil]

theorem dropWhile_append_eq {p : Char → Bool} {text rest : List Char}
    (htext : ∀ c ∈ text, p c = true) (hrest : ∀ c ∈ rest.head?, p c = false) :
    (text ++ rest).dropWhile p = rest := by
  rw [List.dropWhile_append_of_pos htext]
  cases rest with
  | nil => rfl
  | cons c rest => rw [List.dropWhile_cons_of_neg (by simp [hrest c rfl])]

/-! ## Cutting at a character -/

theorem cut?_of_not_mem {mark : Char} {text : List Char} (h : mark ∉ text) :
    cut? [mark] text = none := by
  induction text with
  | nil => rfl
  | cons c rest ih =>
      rw [List.mem_cons, not_or] at h
      rw [cut?, if_neg, ih h.2, Option.map_none]
      simpa [List.isPrefixOf] using h.1

theorem cut?_append {mark : Char} {piece : List Char} (h : mark ∉ piece) (rest : List Char) :
    cut? [mark] (piece ++ mark :: rest) = some (piece, rest) := by
  induction piece with
  | nil => simp [cut?, List.isPrefixOf]
  | cons c piece ih =>
      rw [List.mem_cons, not_or] at h
      rw [List.cons_append, cut?, if_neg, ih h.2, Option.map_some]
      simpa [List.isPrefixOf] using h.1

/-- Cutting at a single character is splitting at it. -/
theorem splitAll_singleton (mark : Char) (text : List Char) :
    splitAll [mark] text = text.splitOn mark := by
  rw [splitAll, if_neg (by simp)]
  by_cases hmark : mark ∈ text
  · obtain ⟨piece, rest, rfl, hpiece⟩ := List.eq_append_cons_of_mem hmark
    rw [List.splitOn_append_cons_self_of_not_mem hpiece, ← splitAll_singleton mark rest]
    split
    · next hcut =>
      rw [cut?_append hpiece rest] at hcut
      cases hcut
    · next hcut =>
      rw [cut?_append hpiece rest] at hcut
      cases hcut
      rfl
  · rw [List.splitOn_eq_singleton hmark]
    split
    · rfl
    · next hcut =>
      rw [cut?_of_not_mem hmark] at hcut
      cases hcut
termination_by text.length
decreasing_by
  subst_vars
  rw [List.length_append, List.length_cons]
  omega

theorem not_mem_of_mem_splitOn {mark : Char} {text piece : List Char}
    (h : piece ∈ text.splitOn mark) : mark ∉ piece := by
  induction text generalizing piece with
  | nil =>
      rw [List.splitOn_nil, List.mem_singleton] at h
      exact h ▸ List.not_mem_nil
  | cons c rest ih =>
      rw [List.splitOn_cons_eq_if_modifyHead] at h
      split at h
      · rcases List.mem_cons.mp h with rfl | h
        · exact List.not_mem_nil
        · exact ih h
      · next hc =>
        obtain ⟨first, others, hrest⟩ := List.exists_cons_of_ne_nil (List.splitOn_ne_nil mark rest)
        rw [hrest] at h ih
        rcases List.mem_cons.mp h with rfl | h
        · rw [List.mem_cons, not_or]
          exact ⟨fun heq => hc (beq_iff_eq.mpr heq.symm), ih List.mem_cons_self⟩
        · exact ih (List.mem_cons_of_mem _ h)

/-! ## Cutting at line breaks -/

/-- The lines of a text; a line break at the end begins an empty line. -/
def lines (text : List Char) : List (List Char) := splitAll ['\n'] text

theorem lines_of_not_mem {text : List Char} (h : '\n' ∉ text) : lines text = [text] := by
  rw [lines, splitAll_singleton, List.splitOn_eq_singleton h]

theorem lines_cons {line : List Char} (h : '\n' ∉ line) (rest : List Char) :
    lines (line ++ '\n' :: rest) = line :: lines rest := by
  rw [lines, lines, splitAll_singleton, splitAll_singleton,
    List.splitOn_append_cons_self_of_not_mem h]

/-- What holds of a single line and passes on to a text with one more line in front. -/
@[elab_as_elim]
theorem lines_induction {motive : List Char → Prop} (last : ∀ line, '\n' ∉ line → motive line)
    (more : ∀ line rest, '\n' ∉ line → motive rest → motive (line ++ '\n' :: rest))
    (text : List Char) : motive text := by
  by_cases hbreak : '\n' ∈ text
  · obtain ⟨line, rest, htext, hline⟩ := List.eq_append_cons_of_mem hbreak
    have : rest.length < text.length := by
      rw [htext, List.length_append, List.length_cons]
      omega
    rw [htext]
    exact more line rest hline (lines_induction last more rest)
  · exact last text hbreak
termination_by text.length

theorem lines_append (text rest : List Char) :
    lines (text ++ '\n' :: rest) = lines text ++ lines rest := by
  induction text using lines_induction with
  | last line hline => rw [lines_cons hline, lines_of_not_mem hline, List.singleton_append]
  | more line more hline ih =>
      rw [List.append_assoc, List.cons_append, lines_cons hline, ih, lines_cons hline,
        List.cons_append]

theorem lines_flatMap {α : Type} {f : α → List Char} {items : List α}
    (h : ∀ item ∈ items, '\n' ∉ f item) :
    lines (items.flatMap fun item => f item ++ ['\n']) = items.map f ++ [[]] := by
  induction items with
  | nil => exact lines_of_not_mem List.not_mem_nil
  | cons item rest ih =>
      rw [List.flatMap_cons, List.append_assoc, List.singleton_append,
        lines_cons (h item List.mem_cons_self), ih fun other hmem => h other (.tail _ hmem),
        List.map_cons, List.cons_append]

theorem lines_ne_nil (text : List Char) : lines text ≠ [] := by
  induction text using lines_induction with
  | last line hline => rw [lines_of_not_mem hline]; exact List.cons_ne_nil _ _
  | more line rest hline => rw [lines_cons hline]; exact List.cons_ne_nil _ _

theorem length_lines (text : List Char) : (lines text).length = text.count '\n' + 1 := by
  induction text using lines_induction with
  | last line hline => rw [lines_of_not_mem hline, List.count_eq_zero_of_not_mem hline]; rfl
  | more line rest hline ih =>
      rw [lines_cons hline, List.length_cons, ih, List.count_append, List.count_cons_self,
        List.count_eq_zero_of_not_mem hline, Nat.zero_add]

/-- Lines joined by another text have it in place of each line break. -/
theorem intercalate_lines (mark text : List Char) :
    mark.intercalate (lines text) = text.flatMap fun c => if c = '\n' then mark else [c] := by
  have hsame {line : List Char} (h : '\n' ∉ line) :
      (line.flatMap fun c => if c = '\n' then mark else [c]) = line := by
    have hline : ∀ c ∈ line, (if c = '\n' then mark else [c]) = [c] :=
      fun c hc => if_neg fun heq : c = '\n' => h (heq ▸ hc)
    rw [List.flatMap_congr hline, List.flatMap_singleton']
  induction text using lines_induction with
  | last line hline => rw [lines_of_not_mem hline, List.intercalate_singleton, hsame hline]
  | more line rest hline ih =>
      obtain ⟨first, others, hrest⟩ := List.exists_cons_of_ne_nil (lines_ne_nil rest)
      rw [lines_cons hline, hrest, List.intercalate_cons_cons, ← hrest, ih, List.flatMap_append,
        hsame hline, List.flatMap_cons, if_pos rfl, List.append_assoc]

theorem toList_replaceAll_lineFeed (other text : String) :
    (replaceAll "\n" other text).toList =
      text.toList.flatMap fun c => if c = '\n' then other.toList else [c] := by
  have hpieces : (split "\n" text).map String.toList = lines text.toList := by
    have hsame : String.toList ∘ String.ofList = id := funext fun _ => String.toList_ofList
    rw [split, List.map_map, hsame, List.map_id]
    rfl
  rw [replaceAll, String.toList_intercalate, hpieces, intercalate_lines]

theorem not_mem_of_mem_lines {line text : List Char} (h : line ∈ lines text) : '\n' ∉ line := by
  rw [lines, splitAll_singleton] at h
  exact not_mem_of_mem_splitOn h

/-! ## Lines with data -/

/-- Whether a line is neither blank nor a comment. -/
def carriesData (line : List Char) : Bool :=
  match line.dropWhile isBlank with
  | [] => false
  | c :: _ => c != '#'

theorem not_carriesData_comment (count : Nat) (text : List Char) :
    ¬ carriesData (List.replicate count ' ' ++ '#' :: text) := by
  have hspaces : ∀ c ∈ List.replicate count ' ', isBlank c := by
    intro c hc
    rw [List.eq_of_mem_replicate hc]
    decide
  have hhash : ¬ isBlank '#' := by decide
  rw [carriesData, List.dropWhile_append_of_pos hspaces, List.dropWhile_cons_of_neg hhash]
  exact Bool.false_ne_true

def dataLines (text : List Char) : List (List Char) := (lines text).filter carriesData

theorem dataLines_append (text rest : List Char) :
    dataLines (text ++ '\n' :: rest) = dataLines text ++ dataLines rest := by
  rw [dataLines, lines_append, List.filter_append]
  rfl

theorem dataLines_nil : dataLines [] = [] := by
  rw [dataLines, lines_of_not_mem List.not_mem_nil]
  rfl

/-- A text that is empty or ends with a line break. -/
def Ended (text : List Char) : Prop := text = [] ∨ ∃ front, text = front ++ ['\n']

theorem Ended.append {text rest : List Char} (htext : Ended text) (hrest : Ended rest) :
    Ended (text ++ rest) := by
  rcases hrest with rfl | ⟨front, rfl⟩
  · rwa [List.append_nil]
  · exact .inr ⟨text ++ front, (List.append_assoc _ _ _).symm⟩

theorem Ended.flatMap {α : Type} {f : α → List Char} {items : List α}
    (h : ∀ item ∈ items, Ended (f item)) : Ended (items.flatMap f) := by
  induction items with
  | nil => exact .inl rfl
  | cons item rest ih =>
      rw [List.flatMap_cons]
      exact (h item List.mem_cons_self).append
        (ih fun other hmem => h other (List.mem_cons_of_mem _ hmem))

theorem Ended.dataLines_append {text : List Char} (h : Ended text) (rest : List Char) :
    dataLines (text ++ rest) = dataLines text ++ dataLines rest := by
  rcases h with rfl | ⟨front, rfl⟩
  · rw [dataLines_nil, List.nil_append, List.nil_append]
  · rw [List.append_assoc, List.singleton_append, Text.dataLines_append, Text.dataLines_append,
      dataLines_nil, List.append_nil]

theorem Ended.dataLines_flatMap {α : Type} {f : α → List Char} {items : List α}
    (h : ∀ item ∈ items, Ended (f item)) :
    dataLines (items.flatMap f) = items.flatMap fun item => dataLines (f item) := by
  induction items with
  | nil => exact dataLines_nil
  | cons item rest ih =>
      rw [List.flatMap_cons, List.flatMap_cons, (h item List.mem_cons_self).dataLines_append,
        ih fun other hmem => h other (List.mem_cons_of_mem _ hmem)]

end LayeredConfig.Text
