import LayeredConfig.Proofs.Commented.Blocks
import LayeredConfig.Proofs.Commented.Comments
import LayeredConfig.Proofs.Commented.Widths

/-! # The extent of documents

Laying out a document comes to an end. The search for a width stops on the first line that is not
covered, every line of a text in double quotes takes something off the text, and so a document has
no more lines than its texts call for, whatever the layout. -/

namespace LayeredConfig

open Text

namespace Text

/-- The number of lines of a text. -/
def height (text : String) : Nat := (lines text.toList).length

theorem height_eq (text : String) : height text = text.toList.count '\n' + 1 := length_lines _

theorem length_words_le (text : List Char) : (words text).length ≤ text.length := by
  fun_induction words text with
  | case1 => exact Nat.zero_le _
  | case2 text c rest hdrop ih =>
      have htext := (List.dropWhile_suffix (l := text) isBlank).length_le
      have hrest := (List.dropWhile_suffix (l := rest) (!isBlank ·)).length_le
      rw [hdrop, List.length_cons] at htext
      rw [List.length_cons]
      omega

theorem sublist_dropEnd? (ending text : List Char) :
    ((dropEnd? ending text).getD text).Sublist text := by
  rw [dropEnd?]
  split
  · exact List.take_sublist _ _
  · exact List.Sublist.refl text

end Text

namespace Commented

/-! ## Widths behind columns -/

namespace Layout

/-- A search among the widths that are left behind `used` columns, on one line after the other. From
a line on it takes a number of rounds until a width is positive. -/
inductive Search (length : Int) (used : Nat) : (line rounds : Nat) → (width : Int) → Prop
  | found {line : Nat} (h : 0 < length * line - used) :
      Search length used line 1 (length * line - used)
  | next {line rounds : Nat} {width : Int} (h : length * line - used ≤ 0)
      (rest : Search length used (line + 1) rounds width) :
      Search length used line (rounds + 1) width

variable {length width : Int} {used line rounds : Nat}

/-- What is found is the least of the positive widths from the line on. -/
theorem Search.isLeast (h : Search length used line rounds width) (hlength : 0 < length) :
    IsLeast {width | 0 < width ∧ ∃ other : Nat, line ≤ other ∧ width = length * other - used}
      width := by
  induction h with
  | @found line h =>
      refine ⟨⟨h, line, le_rfl, rfl⟩, ?_⟩
      rintro _ ⟨-, other, hother, rfl⟩
      have hfurther : length * line ≤ length * other :=
        mul_le_mul_of_nonneg_left (Int.ofNat_le.mpr hother) hlength.le
      omega
  | @next line rounds width h rest ih =>
      obtain ⟨⟨hpositive, other, hother, heq⟩, hleast⟩ := ih
      refine ⟨⟨hpositive, other, by omega, heq⟩, ?_⟩
      rintro _ ⟨hbetter, other, hother, rfl⟩
      -- Nothing is left on the line itself.
      have hne : other ≠ line := by
        rintro rfl
        omega
      exact hleast ⟨hbetter, other, by omega, rfl⟩

/-- The search passes the lines that are covered, `more` of which are left, and then stops. -/
theorem search_of_covered (hlength : 0 < length) {more : Nat}
    (hline : line + more = (used / length).toNat + 1) :
    Search length used line (more + 1) (length - used % length) := by
  have hdivide := Int.mul_ediv_add_emod used length
  have hquotient : 0 ≤ used / length := Int.ediv_nonneg (Int.natCast_nonneg used) hlength.le
  induction more generalizing line with
  | zero =>
      have hrest := Int.emod_lt_of_pos used hlength
      have hstop : length * line - used = length - used % length := by
        have hcast : (line : Int) = used / length + 1 := by omega
        rw [hcast, mul_add, mul_one]
        omega
      rw [← hstop]
      exact .found (by omega)
  | succ more ih =>
      have hrest := Int.emod_nonneg used hlength.ne'
      have hcovered : length * line ≤ length * (used / length) :=
        mul_le_mul_of_nonneg_left (by omega) hlength.le
      exact .next (by omega) (ih (by omega))

variable (layout : Layout)

theorem search_widthBehind (hlength : 0 < layout.maxLineLength) (used : Nat) :
    Search layout.maxLineLength used 1 ((used / layout.maxLineLength).toNat + 1)
      (layout.widthBehind used) := by
  rw [widthBehind, if_neg (not_le.mpr hlength)]
  exact search_of_covered hlength (Nat.add_comm 1 _)

/-- On lines of ten columns 25 columns cover two lines and a half. -/
example : widthBehind ⟨10, 0, 0⟩ 25 = 5 := by decide

theorem widthBehind_pos (used : Nat) : 0 < layout.widthBehind used := by
  by_cases hlength : 0 < layout.maxLineLength
  · exact ((layout.search_widthBehind hlength used).isLeast hlength).1.1
  · rw [widthBehind, if_pos (not_lt.mp hlength)]
    decide

end Layout

/-! ## Texts in double quotes -/

theorem length_le_length_flatten {pieces : List (List Char)} (h : ∀ piece ∈ pieces, piece ≠ []) :
    pieces.length ≤ pieces.flatten.length := by
  rw [List.length_flatten, ← List.length_map (f := List.length)]
  refine List.length_le_sum_of_one_le _ (List.forall_mem_map.mpr fun piece hpiece => ?_)
  exact List.length_pos_iff.mpr (h piece hpiece)

theorem not_mem_jsonEscaped (c : Char) : '\n' ∉ jsonEscaped c := by
  by_cases hfeed : c = '\n'
  · rw [hfeed]
    decide
  unfold jsonEscaped
  iterate 7
    split
    · decide
  split
  · next hcontrol =>
    obtain ⟨-, hall, -⟩ := digitsInBase_control c.toNat hcontrol
    have hdigits : '\n' ∉ digitsInBase 16 4 c.toNat := fun hmem =>
      absurd (List.all_eq_true.mp hall '\n' hmem) (by decide)
    simpa using hdigits
  · simpa using Ne.symm hfeed

theorem not_mem_jsonQuoted (text : String) : '\n' ∉ (jsonQuoted text).toList := by
  rw [jsonQuoted, String.toList_ofList]
  simp [not_mem_jsonEscaped]

theorem length_jsonQuoted (text : String) : text.toList.length + 2 ≤ (jsonQuoted text).length := by
  have hne : ∀ piece ∈ text.toList.map jsonEscaped, piece ≠ [] := by
    rintro _ hpiece rfl
    obtain ⟨c, -, hc⟩ := List.mem_map.mp hpiece
    rcases jsonEscaped_cases c with ⟨heq, -⟩ | ⟨d, heq⟩ | ⟨digits, heq, -⟩ <;>
      rw [hc] at heq <;> cases heq
  have hlength := length_le_length_flatten hne
  rw [List.length_map, ← List.flatMap_def] at hlength
  rw [jsonQuoted, ← String.length_toList, String.toList_ofList]
  simpa using hlength

theorem length_chunk_le (text : String) (width : Int) :
    (chunk (ValueForm.escaped text) width).length ≤ (jsonQuoted text).length := by
  obtain ⟨pieces, last, hlines, hflatten, hpieces, hlast⟩ :=
    exists_pieces_ne_nil (ValueForm.escaped text) width
  have hcount := length_le_length_flatten hpieces
  have hpositive := List.length_pos_iff.mpr hlast
  have hlength := congrArg List.length hflatten
  rw [inQuotes_escaped, List.length_append, String.length_toList] at hlength
  rw [hlines, List.length_map, List.length_append, List.length_map, List.length_singleton]
  omega

theorem not_mem_of_mem_chunk {text line : String} {width : Int}
    (hline : line ∈ chunk (ValueForm.escaped text) width) : '\n' ∉ line.toList := by
  obtain ⟨pieces, last, hlines, hflatten, -⟩ := exists_pieces_ne_nil (ValueForm.escaped text) width
  have hbreak := not_mem_jsonQuoted text
  rw [← inQuotes_escaped, ← hflatten, List.mem_append, List.mem_flatten, not_or] at hbreak
  obtain ⟨hpieces, hlast⟩ := hbreak
  rw [hlines] at hline
  obtain ⟨chars, hchars, rfl⟩ := List.mem_map.mp hline
  rw [String.toList_ofList]
  rcases List.mem_append.mp hchars with hpiece | hchars
  · obtain ⟨piece, hmember, rfl⟩ := List.mem_map.mp hpiece
    rw [List.mem_append, not_or]
    exact ⟨fun hmem => hpieces ⟨piece, hmember, hmem⟩, by decide⟩
  · rwa [List.mem_singleton.mp hchars]

/-! ## Lines of values -/

namespace ValueForm

/-- A text is written in one line without a break, cut into lines, or written as a block. -/
theorem ofText_cases (text : String) (width : Int) :
    (∃ line, ofText text width = { lines := [line] } ∧ '\n' ∉ line.toList) ∨
      ofText text width = { lines := chunk (escaped text) width } ∨
      literal? text = some (ofText text width) ∨ folded? text width = some (ofText text width) := by
  obtain ⟨form, h⟩ : ∃ form, ofText text width = form := ⟨_, rfl⟩
  rw [h]
  rcases getD_or h with hplain | ⟨-, h⟩
  · obtain ⟨rfl, -⟩ := of_plain? hplain
    exact .inl ⟨text, rfl, fun hmem => by simp [plain?, hmem] at hplain⟩
  rcases getD_or h with hsingle | ⟨-, h⟩
  · have hbreak : '\n' ∉ text.toList := fun hmem => by simp [singleQuoted?, hmem] at hsingle
    rw [singleQuoted?, Option.ite_none_right_eq_some] at hsingle
    cases hsingle.2
    exact .inl ⟨_, rfl, by simpa using hbreak⟩
  rcases getD_or h with hblank | ⟨-, h⟩
  · have hbreak : ∀ c : Char, '\n' ∉ if c = '\n' then ['\\', 'n'] else [c] := by
      intro c
      split
      · decide
      · next hfeed => simpa using Ne.symm hfeed
    rw [blank?, Option.ite_none_right_eq_some] at hblank
    cases hblank.2
    exact .inl ⟨_, rfl, by simpa [toList_replaceAll_lineFeed] using fun c _ => hbreak c⟩
  rcases getD_or h with houter | ⟨-, h⟩
  · rw [outerSpace?, Option.ite_none_right_eq_some] at houter
    cases houter.2
    exact .inr (.inl rfl)
  rcases getD_or h with hliteral | ⟨-, h⟩
  · exact .inr (.inr (.inl hliteral))
  cases hfolded : folded? text width with
  | some other =>
      rw [hfolded, Option.getD_some] at h
      exact .inr (.inr (.inr (congrArg some h)))
  | none =>
      rw [hfolded, Option.getD_none, doubleQuoted] at h
      split at h
      · exact .inr (.inl h.symm)
      · refine .inl ⟨_, h.symm, fun hmem => not_mem_jsonQuoted text ?_⟩
        rw [← inQuotes_escaped, inQuotes]
        split
        · exact hmem
        · exact List.mem_cons_of_mem _ (List.mem_append_left _ hmem)

theorem not_mem_of_mem_of (value : Option String) (width : Int) {line : String}
    (hline : line ∈ (of value width).lines) : '\n' ∉ line.toList := by
  cases value with
  | none =>
      rw [of, List.mem_singleton] at hline
      rw [hline]
      decide
  | some text =>
      rw [of] at hline
      rcases ofText_cases text width with ⟨single, hform, hbreak⟩ | hform | hliteral | hfolded
      · rw [hform, List.mem_singleton] at hline
        rwa [hline]
      · rw [hform] at hline
        exact not_mem_of_mem_chunk hline
      · obtain ⟨front, sign, -, -, -, -, hform⟩ := of_literal? hliteral
        rw [hform] at hline
        obtain ⟨chars, hchars, rfl⟩ := List.mem_map.mp hline
        rw [String.toList_ofList]
        exact Text.not_mem_of_mem_lines hchars
      · obtain ⟨first, rest, hwords, hform⟩ := of_folded? hfolded
        rw [hform] at hline
        obtain ⟨chars, hchars, rfl⟩ := List.mem_map.mp hline
        have hword : ∀ word ∈ first :: rest, WordLine word := fun word hmem =>
          .of_mem_words (hwords ▸ hmem)
        have hwordLine := wordLine_fill width.toNat (hword first List.mem_cons_self)
          (fun word hmem => hword word (List.mem_cons_of_mem _ hmem)) chars hchars
        rw [String.toList_ofList]
        exact fun hmem => absurd (hwordLine.blank '\n' hmem (by decide)) (by decide)

theorem length_fill_le (width : Nat) (current : List Char) (rest : List (List Char)) :
    (fill width current rest).length ≤ rest.length + 1 := by
  induction rest generalizing current with
  | nil => rfl
  | cons word rest ih =>
      rw [fill]
      split
      · exact (ih _).trans (Nat.le_succ _)
      · exact Nat.succ_le_succ (ih word)

/-- At any width a value has at most as many lines as it has characters in double quotes. -/
theorem length_lines_le (value : Option String) (width : Int) :
    (of value width).lines.length ≤ (jsonQuoted (value.getD "")).length := by
  have hquoted := length_jsonQuoted (value.getD "")
  cases value with
  | none =>
      rw [of, List.length_singleton]
      omega
  | some text =>
      rw [Option.getD_some] at hquoted
      rw [of, Option.getD_some]
      rcases ofText_cases text width with ⟨single, hform, -⟩ | hform | hliteral | hfolded
      · rw [hform, List.length_singleton]
        omega
      · rw [hform]
        exact length_chunk_le text width
      · obtain ⟨front, sign, -, -, htext, -, hform⟩ := of_literal? hliteral
        have hbreaks := List.count_le_length (a := '\n') (l := front)
        have hfront := congrArg List.length htext
        rw [List.length_append] at hfront
        rw [hform, List.length_map, length_lines]
        omega
      · obtain ⟨first, rest, hwords, hform⟩ := of_folded? hfolded
        have hcount := length_words_le text.toList
        have hfill := length_fill_le width.toNat first rest
        rw [hwords, List.length_cons] at hcount
        rw [hform, List.length_map]
        omega

theorem sum_height_le (value : Option String) (width : Int) :
    ((of value width).lines.map height).sum ≤ (jsonQuoted (value.getD "")).length := by
  have hheight : ∀ line ∈ (of value width).lines, height line = 1 := by
    intro line hline
    rw [height_eq, List.count_eq_zero_of_not_mem (not_mem_of_mem_of value width hline)]
  rw [List.map_congr_left hheight]
  simpa using length_lines_le value width

end ValueForm

theorem BlockSign.height_toText (sign : BlockSign) : height sign.toText = 1 := by
  cases sign <;> decide +kernel

/-! ## Lines of entries -/

namespace Layout

variable (layout : Layout)

theorem count_spaces (count : Nat) : (List.replicate count ' ').count '\n' = 0 := by
  rw [List.count_replicate]
  rfl

theorem count_indent (level : Int) : (layout.indent level).toList.count '\n' = 0 := by
  rw [indent, String.toList_ofList, count_spaces]

theorem count_opening (level : Int) (key : Option String) :
    (layout.opening level key).toList.count '\n' + 1 = height (key.getD "") := by
  rw [opening, String.toList_append, List.count_append, count_indent, height_eq]
  cases key <;> simp

theorem count_above_le (level : Int) (comments : List String) :
    (layout.above level comments).toList.count '\n' ≤ (comments.map height).sum + 1 := by
  rcases layout.toList_above level comments with hnone | ⟨count, texts, hsublist, htext⟩
  · rw [hnone]
    exact Nat.zero_le _
  · have hlines : (texts.flatMap fun text =>
        (List.replicate count ' ' ++ '#' :: ' ' :: text) ++ ['\n']).count '\n' =
          (texts.map fun text => text.count '\n' + 1).sum := by
      rw [List.count_flatMap]
      simp [Function.comp_def, count_spaces]
    have hcomment : ∀ comment ∈ comments,
        ((dropEnd? ['\n'] comment.toList).getD comment.toList).count '\n' + 1 ≤
          height comment := by
      intro comment _
      rw [height_eq]
      exact Nat.succ_le_succ ((sublist_dropEnd? _ _).count_le '\n')
    rw [htext, List.count_cons_self, hlines]
    refine Nat.succ_le_succ ?_
    calc (texts.map fun text => text.count '\n' + 1).sum
        ≤ ((comments.map fun comment =>
            (dropEnd? ['\n'] comment.toList).getD comment.toList).map
              fun text => text.count '\n' + 1).sum :=
          (hsublist.map _).sum_le_sum fun _ _ => Nat.zero_le _
      _ ≤ (comments.map height).sum := by
          rw [List.map_map]
          exact List.sum_le_sum hcomment

/-- The line of an entry breaks only where its key and its comment do. -/
theorem count_mainLine_le (opening : String) (behind : List String) {form : ValueForm}
    (hform : ∀ line ∈ form.lines, '\n' ∉ line.toList) :
    (layout.mainLine opening behind form).toList.count '\n' ≤
      opening.toList.count '\n' + 1 +
        if behind.length ≤ 1 then (behind.map height).sum else 0 := by
  unfold mainLine
  extract_lets line spaces comment sign
  have hline : line.toList.count '\n' = opening.toList.count '\n' := by
    subst line
    split
    · next single _ hlines =>
      have hsingle := List.count_eq_zero_of_not_mem (hform single (by simp [hlines]))
      split <;> simp [hsingle]
    · simp
    · rfl
  have hcomment : comment.toList.count '\n' ≤
      if behind.length ≤ 1 then (behind.map height).sum else 0 := by
    subst comment
    split
    · next single =>
      rw [if_pos (by simp)]
      simp [count_spaces, height_eq]
    · exact Nat.zero_le _
  have hsign : sign.toList.count '\n' = 0 := by
    subst sign
    split
    · cases form.sign with
      | none => rfl
      | some sign => cases sign <;> rfl
    · rfl
  have hbreak : "\n".toList.count '\n' = 1 := rfl
  simp only [String.toList_append, List.count_append, hline, hsign, hbreak]
  omega

theorem count_join_lines {left : String} (hleft : left.toList.count '\n' = 0)
    (lines : List String) :
    (String.join (lines.map fun line => left ++ line ++ "\n")).toList.count '\n' =
      (lines.map height).sum := by
  have hline : ∀ line : String, (left ++ line ++ "\n").toList.count '\n' = height line := by
    intro line
    simp [hleft, height_eq]
  rw [String.toList_join, List.flatMap_map, List.count_flatMap]
  simp only [Function.comp_def, hline]

/-- Below an entry stand its comments if there are several, the sign of its value where a comment
is in the place of the sign, and the lines of its value. -/
theorem count_linesBelow_le (level : Int) (behind : List String) (form : ValueForm)
    (value : Option String) :
    (String.join (layout.linesBelow level behind form value)).toList.count '\n' ≤
      (jsonQuoted (value.getD "")).length + 1 +
        if behind.length ≤ 1 then 0 else (behind.map height).sum := by
  unfold linesBelow
  extract_lets left comments values
  have hcomments : (comments.map height).sum ≤
      if behind.length ≤ 1 then 0 else (behind.map height).sum := by
    subst comments
    split
    · next hseveral =>
      have hbehind : ∀ comment ∈ behind, height ("# " ++ comment) = height comment := by
        intro comment _
        simp [height_eq]
      rw [if_neg (not_le.mpr hseveral), List.map_map]
      exact (congrArg List.sum (List.map_congr_left hbehind)).le
    · exact Nat.zero_le _
  have hvalues : (values.map height).sum ≤ (jsonQuoted (value.getD "")).length + 1 := by
    subst values
    split
    · exact Nat.zero_le _
    · rw [List.map_append, List.sum_append, Nat.add_comm]
      refine Nat.add_le_add (ValueForm.sum_height_le value _) ?_
      split
      · exact Nat.zero_le _
      · cases form.sign with
        | none => exact Nat.zero_le _
        | some sign => simp [BlockSign.height_toText]
  rw [count_join_lines (layout.count_indent (level + 1)), List.map_append, List.sum_append]
  omega

theorem count_body_le (level : Int) (key value : Option String) (behind : List String)
    (isParent : Bool) :
    (layout.body level key value behind isParent).toList.count '\n' ≤
      height (key.getD "") + (behind.map height).sum + (jsonQuoted (value.getD "")).length + 1 := by
  have hform : ∀ line ∈ (layout.formBehind (layout.opening level key) value isParent).lines,
      '\n' ∉ line.toList := by
    intro line hline
    rw [formBehind] at hline
    split at hline
    · exact absurd hline List.not_mem_nil
    · exact ValueForm.not_mem_of_mem_of _ _ hline
  have hmain := layout.count_mainLine_le (layout.opening level key) behind hform
  have hbelow := layout.count_linesBelow_le level behind
    (layout.formBehind (layout.opening level key) value isParent) value
  rw [count_opening] at hmain
  -- A single comment stands on the line of the entry, and several stand below it.
  have hbehind : (if behind.length ≤ 1 then (behind.map height).sum else 0) +
      (if behind.length ≤ 1 then 0 else (behind.map height).sum) = (behind.map height).sum := by
    split
    · exact Nat.add_zero _
    · exact Nat.zero_add _
  have hite : ∀ {p : Prop} [Decidable p] (text : String),
      (if p then "" else text).toList.count '\n' ≤ text.toList.count '\n' := by
    intro p _ text
    split
    · exact Nat.zero_le _
    · exact le_rfl
  have hshown := @hite (level < 0) _ (layout.mainLine (layout.opening level key) behind
    (layout.formBehind (layout.opening level key) value isParent))
  rw [body]
  refine (hite _).trans ?_
  rw [String.toList_append, List.count_append]
  omega

end Layout

/-! ## Lines of documents -/

namespace Entry

/-- The lines that the texts of an entry call for: those of its key and its comments, one for each
character of its value in double quotes, a blank one above and one for a sign. -/
def ownExtent (key value : Option String) (above behind : List String) : Nat :=
  (above.map height).sum + height (key.getD "") + (behind.map height).sum +
    (jsonQuoted (value.getD "")).length + 2

mutual

/-- The lines that an entry calls for together with everything below it. -/
def extent : Entry → Nat
  | .entry _ key value above behind none => ownExtent key value above behind
  | .entry _ key value above behind (some entries) =>
    ownExtent key value above behind + extentOfAll entries

def extentOfAll : List Entry → Nat
  | [] => 0
  | first :: rest => extent first + extentOfAll rest

end

theorem extentOfAll_eq (entries : List Entry) : extentOfAll entries = (entries.map extent).sum := by
  induction entries with
  | nil => rfl
  | cons first rest ih => rw [extentOfAll, ih, List.map_cons, List.sum_cons]

theorem extent_entry (level : Int) (key value : Option String) (above behind : List String)
    (below : Option (List Entry)) :
    (entry level key value above behind below).extent =
      ownExtent key value above behind + ((below.getD []).map extent).sum := by
  cases below with
  | none => rw [extent, Option.getD_none, List.map_nil, List.sum_nil, Nat.add_zero]
  | some entries => rw [extent, extentOfAll_eq, Option.getD_some]

end Entry

namespace Layout

variable (layout : Layout)

theorem count_entryText_le (entry : Entry) :
    (layout.entryText entry).toList.count '\n' ≤ entry.extent := by
  induction entry using Entry.induction with
  | entry level key value above behind below ih =>
      have habove := layout.count_above_le level above
      have hbody := layout.count_body_le level key value behind below.isSome
      have hbelow : (((below.getD []).mergeSort Entry.inOrder).map fun entry =>
          (layout.entryText entry).toList.count '\n').sum ≤
            ((below.getD []).map Entry.extent).sum := by
        rw [((List.mergeSort_perm _ Entry.inOrder).map _).sum_eq]
        exact List.sum_le_sum ih
      rw [toList_entryText, List.count_append, List.count_append, List.count_flatMap,
        Entry.extent_entry, Entry.ownExtent]
      simp only [Function.comp_def]
      omega

theorem height_render_le (root : Entry) : height (layout.render root) ≤ root.extent + 3 := by
  have hentry := layout.count_entryText_le root
  have hrender : (layout.render root).toList.count '\n' ≤
      1 + (layout.entryText root ++ "\n").toList.count '\n' := by
    rw [render, String.toList_append, List.count_append]
    refine Nat.add_le_add (Nat.le_refl 1) ?_
    rw [String.toList_ofList]
    split
    · next rest hrest =>
      rw [hrest]
      exact List.count_le_count_cons
    · exact le_rfl
  have hended : (layout.entryText root ++ "\n").toList.count '\n' =
      (layout.entryText root).toList.count '\n' + 1 := by
    simp
  have hheight := height_eq (layout.render root)
  omega

/-- Laying out a document always ends. Behind any number of columns the search for a width stops
with a positive one: lines that are not broken have all the width there is, and otherwise it is the
least that is left on any line. Each line of a text in double quotes takes a piece off what is left
of the text. So a document is finished after as many lines as its texts call for, whatever the
layout, however long its keys are and however deep it goes. -/
theorem render_ends (layout : Layout) :
    (∀ used : Nat, 1 ≤ layout.widthBehind used ∧
      if layout.maxLineLength ≤ 0 then layout.widthBehind used = unbounded
      else
        Search layout.maxLineLength used 1 ((used / layout.maxLineLength).toNat + 1)
          (layout.widthBehind used) ∧
        IsLeast {width | 0 < width ∧
            ∃ line : Nat, 1 ≤ line ∧ width = layout.maxLineLength * line - used}
          (layout.widthBehind used)) ∧
    (∀ (text : String) (width : Int), ∃ (pieces : List (List Char)) (last : List Char),
      chunk text width = (pieces.map (· ++ ['\\']) ++ [last]).map String.ofList ∧
      pieces.flatten ++ last = inQuotes text.toList ∧ (∀ piece ∈ pieces, piece ≠ []) ∧
      last ≠ []) ∧
    ∀ root : Entry, height (layout.render root) ≤ root.extent + 3 := by
  refine ⟨fun used => ⟨layout.widthBehind_pos used, ?_⟩, exists_pieces_ne_nil,
    layout.height_render_le⟩
  split
  · next hunbroken => rw [widthBehind, if_pos hunbroken]
  · next hbroken =>
    have hlength : 0 < layout.maxLineLength := not_le.mp hbroken
    have hsearch := layout.search_widthBehind hlength used
    exact ⟨hsearch, hsearch.isLeast hlength⟩

end Layout

end Commented

end LayeredConfig
