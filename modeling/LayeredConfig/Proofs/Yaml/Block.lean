import LayeredConfig.Proofs.Text.Lines
import LayeredConfig.Proofs.Yaml.Pair
import LayeredConfig.Yaml.Block

/-! # Indented lines as block scalars

Lines that share an indentation are read as a block, joined by line breaks or, if it is folded, by
spaces. The first line that is not empty tells the indentation, so it cannot start with a space of
its own, and a block without a sign for them has one line break at its end at most. -/

namespace LayeredConfig.Yaml

/-- Lines behind the same number of spaces. -/
def indented (width : Nat) (lines : List (List Char)) : List Char :=
  lines.flatMap fun line => List.replicate width ' ' ++ (line ++ ['\n'])

/-- The sign in front of a block. -/
def blockSign (folded : Bool) : Char := if folded then '>' else '|'

/-- What stands between the lines of a block. -/
def lineJoint (folded : Bool) : List Char := if folded then [' '] else ['\n']

section Lines

variable {width : Nat} {line : List Char} {lines : List (List Char)}

theorem indented_cons (width : Nat) (line : List Char) (lines : List (List Char)) :
    indented width (line :: lines) =
      List.replicate width ' ' ++ (line ++ '\n' :: indented width lines) := by
  simp [indented]

/-- Lines without data, and a line with some behind them. -/
theorem exists_empty_lines (lines : List (List Char)) :
    ∃ (count : Nat) (more : List (List Char)),
      lines = List.replicate count [] ++ more ∧ more.head? ≠ some [] := by
  induction lines with
  | nil => exact ⟨0, [], rfl, by simp⟩
  | cons line lines ih =>
      by_cases hline : line = []
      · obtain ⟨count, more, rfl, hmore⟩ := ih
        exact ⟨count + 1, more, by simp [hline, List.replicate_succ], hmore⟩
      · exact ⟨0, line :: lines, rfl, by simpa using hline⟩

theorem takeIndent_replicate (width : Nat) (rest : List Char) :
    takeIndent width (List.replicate width ' ' ++ rest) = (width, rest) := by
  have htake : ((List.replicate width ' ' ++ rest).takeWhile (· == ' ')).take width =
      List.replicate width ' ' := by
    rw [List.takeWhile_append_of_pos eq_space_of_mem_replicate, List.take_append_of_le_length]
    · simp
    · simp
  rw [takeIndent, htake]
  simp

/-! ## Lines without data -/

theorem blankLines_lineFeed (width : Nat) (rest : List Char) :
    blankLines width (List.replicate width ' ' ++ '\n' :: rest) =
      { blankLines width rest with breaks := '\n' :: (blankLines width rest).breaks } := by
  rw [blankLines]
  split
  · next hbreak => rw [takeIndent_replicate, takeBreak?_lineFeed] at hbreak; cases hbreak
  · next hbreak =>
    rw [takeIndent_replicate, takeBreak?_lineFeed] at hbreak
    cases hbreak
    rfl

theorem blankLines_of_none {text : List Char} (h : takeBreak? (takeIndent width text).2 = none) :
    blankLines width text = ⟨[], (takeIndent width text).1, (takeIndent width text).2⟩ := by
  rw [blankLines]
  split
  · rfl
  · next hbreak => rw [h] at hbreak; cases hbreak

theorem blankLines_empty (width count : Nat) (lines : List (List Char)) :
    blankLines width (indented width (List.replicate count [] ++ lines)) =
      { blankLines width (indented width lines) with
        breaks :=
          List.replicate count '\n' ++ (blankLines width (indented width lines)).breaks } := by
  induction count with
  | zero => simp
  | succ count ih =>
      rw [List.replicate_succ, List.cons_append, indented_cons, List.nil_append,
        blankLines_lineFeed, ih, List.replicate_succ, List.cons_append]

/-- The lines without data in front of one that has some. -/
theorem blankLines_indented (width count : Nat) (lines : List (List Char))
    (hline : ∀ c ∈ line.head?, isBreak c = false) (hne : line ≠ []) :
    blankLines width (indented width (List.replicate count [] ++ line :: lines)) =
      ⟨List.replicate count '\n', width, line ++ '\n' :: indented width lines⟩ := by
  obtain ⟨c, rest, rfl⟩ := List.exists_cons_of_ne_nil hne
  have hnone : takeBreak? (c :: rest ++ '\n' :: indented width lines) = none :=
    takeBreak?_cons (hline c rfl) _
  rw [blankLines_empty, indented_cons, blankLines_of_none]
  · simp [takeIndent_replicate]
  · rwa [takeIndent_replicate]

theorem blankLines_nil (width : Nat) : blankLines width [] = ⟨[], 0, []⟩ := by
  rw [blankLines_of_none]
  · simp [takeIndent]
  · simp [takeIndent, takeBreak?]

theorem spaces_run (width : Nat) {rest : List Char} (hrest : ∀ c ∈ rest.head?, c ≠ ' ') :
    (List.replicate width ' ' ++ rest).takeWhile (· == ' ') = List.replicate width ' ' ∧
      (List.replicate width ' ' ++ rest).dropWhile (· == ' ') = rest := by
  have hhead : ∀ c ∈ rest.head?, (c == ' ') = false := fun c hc => beq_false_of_ne (hrest c hc)
  exact ⟨Text.takeWhile_append_eq eq_space_of_mem_replicate hhead,
    Text.dropWhile_append_eq eq_space_of_mem_replicate hhead⟩

theorem leadingLines_lineFeed (width : Nat) (rest : List Char) :
    leadingLines (List.replicate width ' ' ++ '\n' :: rest) =
      ({ (leadingLines rest).1 with breaks := '\n' :: (leadingLines rest).1.breaks },
        max width (leadingLines rest).2) := by
  have hhead : ∀ c ∈ ('\n' :: rest).head?, c ≠ ' ' := by simp
  obtain ⟨htake, hdrop⟩ := spaces_run width hhead
  rw [leadingLines]
  split
  · next hbreak => rw [hdrop, takeBreak?_lineFeed] at hbreak; cases hbreak
  · next hbreak =>
    rw [hdrop, takeBreak?_lineFeed] at hbreak
    cases hbreak
    simp [htake]

theorem leadingLines_of_none {text : List Char}
    (h : takeBreak? (text.dropWhile (· == ' ')) = none) :
    leadingLines text = (⟨[], (text.takeWhile (· == ' ')).length, text.dropWhile (· == ' ')⟩,
      (text.takeWhile (· == ' ')).length) := by
  rw [leadingLines]
  split
  · rfl
  · next hbreak => rw [h] at hbreak; cases hbreak

/-- The first line with data tells the indentation, unless it starts with a space. -/
theorem leadingLines_indented (count : Nat)
    (hline : ∀ c ∈ line.head?, isBreak c = false ∧ c ≠ ' ') (hne : line ≠ []) :
    leadingLines (indented width (List.replicate count [] ++ line :: lines)) =
      (⟨List.replicate count '\n', width, line ++ '\n' :: indented width lines⟩, width) := by
  induction count with
  | zero =>
      obtain ⟨c, rest, rfl⟩ := List.exists_cons_of_ne_nil hne
      obtain ⟨hbreak, hspace⟩ := hline c rfl
      have hhead : ∀ d ∈ (c :: rest ++ '\n' :: indented width lines).head?, d ≠ ' ' := by
        simpa using hspace
      obtain ⟨htake, hdrop⟩ := spaces_run width hhead
      rw [List.replicate_zero, List.nil_append, indented_cons, leadingLines_of_none]
      · rw [hdrop, htake, List.length_replicate]
        rfl
      · rw [hdrop]
        exact takeBreak?_cons hbreak _
  | succ count ih =>
      rw [List.replicate_succ, List.cons_append, indented_cons, List.nil_append,
        leadingLines_lineFeed, ih, List.replicate_succ, Nat.max_self]

/-! ## Lines with data -/

/-- A line that starts with neither a space nor a tab. -/
def StartsWord (line : List Char) : Prop := ∃ c ∈ line.head?, c ≠ ' ' ∧ c ≠ '\t'

theorem blockLines_last (folded : Bool) {rest : List Char}
    (hline : ∀ c ∈ line, isBreak c = false) (hrest : (blankLines width rest).rest = []) :
    blockLines folded width (line ++ '\n' :: rest) =
      ⟨line, ['\n'], blankLines width rest⟩ := by
  have hinner : ∀ c ∈ line, (!isBreak c) = true := by simpa using hline
  have hhead : ∀ c ∈ ('\n' :: rest).head?, (!isBreak c) = false := by simp [isBreak]
  rw [blockLines]
  simp only [Text.takeWhile_append_eq hinner hhead, Text.dropWhile_append_eq hinner hhead,
    takeBreak?_lineFeed, hrest]
  simp

theorem blockLines_more (folded : Bool) {rest : List Char}
    (hline : ∀ c ∈ line, isBreak c = false) (hcolumn : (blankLines width rest).column = width)
    (hrest : (blankLines width rest).rest ≠ [])
    (hlength : (blankLines width rest).rest.length ≤ rest.length) :
    blockLines folded width (line ++ '\n' :: rest) =
      { blockLines folded width (blankLines width rest).rest with
        text := line ++ joint folded line ['\n'] (blankLines width rest) ++
          (blankLines width rest).breaks ++
            (blockLines folded width (blankLines width rest).rest).text } := by
  have hinner : ∀ c ∈ line, (!isBreak c) = true := by simpa using hline
  have hhead : ∀ c ∈ ('\n' :: rest).head?, (!isBreak c) = false := by simp [isBreak]
  have hshorter : (blankLines width rest).rest.length < (line ++ '\n' :: rest).length := by
    simp
    omega
  rw [blockLines]
  simp only [Text.takeWhile_append_eq hinner hhead, Text.dropWhile_append_eq hinner hhead,
    takeBreak?_lineFeed]
  rw [dif_pos ⟨hcolumn, hrest, hshorter⟩]

theorem joint_literal (line lineBreak : List Char) (blank : BlankLines) :
    joint false line lineBreak blank = lineBreak := by
  simp [joint]

/-- Lines of words are joined by a space. -/
theorem joint_words {next : List Char} (hline : StartsWord line) (hnext : StartsWord next)
    (column : Nat) : joint true line ['\n'] ⟨[], column, next⟩ = [' '] := by
  obtain ⟨c, hc, hspace, htab⟩ := hline
  obtain ⟨d, hd, hspace', htab'⟩ := hnext
  rw [Option.mem_def] at hc hd
  simp [joint, hc, hd, hspace, htab, hspace', htab']

theorem intercalate_empty_lines (count : Nat) {lines : List (List Char)} (hne : lines ≠ []) :
    ['\n'].intercalate (List.replicate count [] ++ lines) =
      List.replicate count '\n' ++ ['\n'].intercalate lines := by
  induction count with
  | zero => simp
  | succ count ih =>
      rw [List.replicate_succ, List.cons_append, List.intercalate_cons_of_ne_nil (by simp [hne]),
        ih]
      simp [List.replicate_succ]

/-- A line, lines without data and more are joined as the lines of a block are. -/
theorem intercalate_joint {folded : Bool} {count : Nat} {next : List Char}
    (hfolded : folded = true →
      ∀ l ∈ line :: (List.replicate count [] ++ next :: lines), StartsWord l)
    (column : Nat) (rest : List Char) :
    (lineJoint folded).intercalate (line :: (List.replicate count [] ++ next :: lines)) =
      line ++ joint folded line ['\n'] ⟨List.replicate count '\n', column, next ++ rest⟩ ++
        List.replicate count '\n' ++ (lineJoint folded).intercalate (next :: lines) := by
  cases folded with
  | false =>
      rw [joint_literal, List.intercalate_cons_of_ne_nil (by simp), lineJoint,
        if_neg Bool.false_ne_true, intercalate_empty_lines count (List.cons_ne_nil next lines)]
      simp
  | true =>
      have hwords := hfolded rfl
      have hzero : count = 0 := by
        by_contra hcount
        have hempty : StartsWord [] := hwords [] (by simp [hcount])
        simp [StartsWord] at hempty
      subst hzero
      obtain ⟨c, hc, hword⟩ := hwords next (by simp)
      have hnext : StartsWord (next ++ rest) := ⟨c, by simp [Option.mem_def.mp hc], hword⟩
      rw [List.replicate_zero, List.replicate_zero,
        joint_words (hwords line List.mem_cons_self) hnext]
      simp [lineJoint, List.intercalate_cons_cons]

/-- The lines of a block from the first one with data; those of a folded block start with words. -/
theorem blockLines_indented {folded : Bool}
    (hbreaks : ∀ l ∈ line :: lines, ∀ c ∈ l, isBreak c = false)
    (hlast : (line :: lines).getLast? ≠ some [])
    (hfolded : folded = true → ∀ l ∈ line :: lines, StartsWord l) :
    blockLines folded width (line ++ '\n' :: indented width lines) =
      ⟨(lineJoint folded).intercalate (line :: lines), ['\n'], ⟨[], 0, []⟩⟩ := by
  induction hlength : lines.length using Nat.strong_induction_on generalizing line lines with
  | _ length ih =>
      have hline := hbreaks line List.mem_cons_self
      obtain ⟨count, more, rfl, hmore⟩ := exists_empty_lines lines
      cases more with
      | nil =>
          have hzero : count = 0 := by
            by_contra hcount
            simp [List.getLast?_cons, List.getLast?_replicate, hcount] at hlast
          subst hzero
          have hnil : blankLines width (indented width []) = ⟨[], 0, []⟩ := blankLines_nil width
          rw [List.replicate_zero, List.append_nil, blockLines_last folded hline]
          · simp [hnil]
          · rw [hnil]
      | cons next more =>
          have hmem : ∀ l ∈ next :: more,
              l ∈ line :: (List.replicate count [] ++ next :: more) := by
            intro l hl
            exact List.mem_cons_of_mem _ (List.mem_append_right _ hl)
          have hne : next ≠ [] := by simpa using hmore
          have hblank := blankLines_indented width count more
            (fun c hc => hbreaks next (hmem _ List.mem_cons_self) c (List.mem_of_mem_head? hc)) hne
          have hnext := ih more.length (by simp at hlength; omega)
            (fun l hl => hbreaks l (hmem l hl))
            (by simpa [List.getLast?_cons, List.getLast?_append] using hlast)
            (fun hfold l hl => hfolded hfold l (hmem l hl)) rfl
          have hlength : (next ++ '\n' :: indented width more).length ≤
              (indented width (List.replicate count [] ++ next :: more)).length := by
            simp [indented]
            omega
          rw [blockLines_more folded hline] <;> rw [hblank]
          · rw [hnext, intercalate_joint hfolded]
          · simp [hne]
          · exact hlength

/-! ## Whole blocks -/

/-- What a header says about the line breaks at the end. -/
def headerOf : Chomping → List Char
  | .clip => []
  | .strip => ['-']
  | .keep => ['+']

/-- The line break that is left of those at the end of a block. -/
def lastBreak : Chomping → List Char
  | .strip => []
  | _ => ['\n']

variable {folded : Bool} {count : Nat} {parent : Int}

theorem blockBody_indented (chomping : Chomping) (hparent : parent < width) (hwidth : 0 < width)
    (hbreaks : ∀ l ∈ line :: lines, ∀ c ∈ l, isBreak c = false)
    (hline : line ≠ []) (hspace : line.head? ≠ some ' ')
    (hlast : (line :: lines).getLast? ≠ some [])
    (hfolded : folded = true → ∀ l ∈ line :: lines, StartsWord l) :
    blockBody folded parent chomping none
        (indented width (List.replicate count [] ++ line :: lines)) =
      (List.replicate count '\n' ++ (lineJoint folded).intercalate (line :: lines) ++
        lastBreak chomping, []) := by
  have hhead : ∀ c ∈ line.head?, isBreak c = false ∧ c ≠ ' ' := by
    intro c hc
    refine ⟨hbreaks line List.mem_cons_self c (List.mem_of_mem_head? hc), ?_⟩
    rintro rfl
    exact hspace hc
  have hleast : max (max (parent + 1) 1).toNat width = width := by omega
  simp only [blockBody, leadingLines_indented count hhead hline, hleast]
  rw [if_pos ⟨trivial, by simp [hline]⟩, blockLines_indented hbreaks hlast hfolded]
  cases chomping <;> simp [lastBreak]

theorem blockScalar_indented (chomping : Chomping) (body : List Char) :
    blockScalar folded parent (headerOf chomping ++ '\n' :: body) =
      .ok (blockBody folded parent chomping none body) := by
  have hrest : restOfLine ('\n' :: body) = .ok body := by
    simp [restOfLine, takeBreak?_lineFeed]
  cases chomping <;>
    simp [blockScalar, blockHeader, headerOf, chomping?, startsSpace, isBreak, hrest,
      Text.isAsciiDigit, bind, Except.bind] <;> rfl

end Lines

/-! ## Texts as blocks -/

theorem getLast?_lines {text : List Char} (h : (Text.lines text).getLast? = some []) :
    text = [] ∨ text.getLast? = some '\n' := by
  induction text using Text.lines_induction with
  | last line hline =>
      rw [Text.lines_of_not_mem hline] at h
      exact .inl (by simpa using h)
  | more line rest hline ih =>
      right
      rw [Text.lines_cons hline, List.getLast?_cons_of_ne_nil (Text.lines_ne_nil rest)] at h
      rcases ih h with rfl | hrest
      · simp
      · simp [List.getLast?_append, List.getLast?_cons, hrest]

theorem intercalate_lines_lineFeed (text : List Char) :
    ['\n'].intercalate (Text.lines text) = text := by
  have hsame : (fun c => if c = '\n' then ['\n'] else [c]) = fun c : Char => [c] := by
    funext c
    split
    · next heq => rw [heq]
    · rfl
  rw [Text.intercalate_lines, hsame, List.flatMap_singleton']

theorem mem_intercalate {mark line : List Char} {lines : List (List Char)} (hline : line ∈ lines)
    {c : Char} (hc : c ∈ line) : c ∈ mark.intercalate lines := by
  induction lines with
  | nil => simp at hline
  | cons first lines ih =>
      by_cases hnil : lines = []
      · subst hnil
        rw [List.intercalate_singleton]
        rwa [List.mem_singleton.mp hline] at hc
      · rw [List.intercalate_cons_of_ne_nil hnil]
        rcases List.mem_cons.mp hline with rfl | hline
        · simp [hc]
        · simp [ih hline]

/-- The lines of a text are a literal block of it, unless spaces or line breaks get lost. -/
theorem blockBody_lines {text : List Char} {width : Nat} {parent : Int} (chomping : Chomping)
    (hparent : parent < width) (hwidth : 0 < width)
    (hbreaks : ∀ c ∈ text, isBreak c = true → c = '\n') (hdata : ∃ c ∈ text, c ≠ '\n')
    (hspace : (text.dropWhile (· == '\n')).head? ≠ some ' ') (hlast : text.getLast? ≠ some '\n') :
    blockBody false parent chomping none (indented width (Text.lines text)) =
      (text ++ lastBreak chomping, []) := by
  have hmem : ∀ line ∈ Text.lines text, ∀ c ∈ line, isBreak c = false := by
    intro line hline c hc
    by_contra hbreak
    rw [Bool.not_eq_false] at hbreak
    have htext : c ∈ text := intercalate_lines_lineFeed text ▸ mem_intercalate hline hc
    exact Text.not_mem_of_mem_lines hline (hbreaks c htext hbreak ▸ hc)
  have hend : (Text.lines text).getLast? ≠ some [] := by
    intro hnil
    rcases getLast?_lines hnil with rfl | hfeed
    · simp at hdata
    · exact hlast hfeed
  obtain ⟨count, more, hlines, hmore⟩ := exists_empty_lines (Text.lines text)
  cases more with
  | nil =>
      have hcount : count ≠ 0 := by
        rintro rfl
        exact Text.lines_ne_nil text (by simpa using hlines)
      simp [hlines, List.getLast?_replicate, hcount] at hend
  | cons line more =>
      have htext : text = List.replicate count '\n' ++ ['\n'].intercalate (line :: more) := by
        rw [← intercalate_empty_lines count (List.cons_ne_nil line more), ← hlines,
          intercalate_lines_lineFeed]
      have hline : line ≠ [] := by simpa using hmore
      have hhead : line.head? ≠ some ' ' := by
        intro hspaced
        obtain ⟨rest, rfl⟩ := List.head?_eq_some_iff.mp hspaced
        obtain ⟨tail, htail⟩ :
            ∃ tail, ['\n'].intercalate ((' ' :: rest) :: more) = ' ' :: tail := by
          cases more <;> simp [List.intercalate_cons_cons]
        have hfeeds : ∀ c ∈ List.replicate count '\n', (c == '\n') = true := by
          intro c hc
          simp [List.eq_of_mem_replicate hc]
        rw [htext, htail, Text.dropWhile_append_eq hfeeds (by simp)] at hspace
        exact hspace rfl
      rw [hlines, blockBody_indented chomping hparent hwidth _ hline hhead] 
      · rw [htext]
        rfl
      · simpa [hlines, List.getLast?_append] using hend
      · simp
      · intro l hl
        exact hmem l (hlines ▸ List.mem_append_right _ hl)

/-! ## What no block holds -/

theorem isBreak_of_takeBreak?_none {text : List Char} (h : takeBreak? text = none) :
    ∀ c ∈ text.head?, isBreak c = false := by
  intro c hc
  obtain ⟨rest, rfl⟩ := List.head?_eq_some_iff.mp hc
  by_contra hbreak
  rw [Bool.not_eq_false] at hbreak
  unfold takeBreak? at h
  grind [isBreak]

theorem ne_space_of_takeBreak? {text rest : List Char} {c : Char}
    (h : takeBreak? text = some (c, rest)) : c ≠ ' ' := by
  unfold takeBreak? at h
  grind

/-- The first line with data has lost the spaces in front of it. -/
theorem leadingLines_spec (text : List Char) :
    (∀ c ∈ (leadingLines text).1.breaks, c ≠ ' ') ∧
      ∀ c ∈ (leadingLines text).1.rest.head?, c ≠ ' ' ∧ isBreak c = false := by
  fun_induction leadingLines text with
  | case1 text column rest hnone =>
      refine ⟨by simp, fun c hc => ⟨?_, isBreak_of_takeBreak?_none hnone c hc⟩⟩
      have hhead := List.head?_dropWhile_not (· == ' ') text
      rw [Option.mem_def.mp hc] at hhead
      simpa using hhead
  | case2 text column rest c after hsome more deepest heq ih =>
      rw [heq] at ih
      exact ⟨List.forall_mem_cons.mpr ⟨ne_space_of_takeBreak? hsome, ih.1⟩, ih.2⟩

theorem head_blankLines (indent : Nat) (text : List Char) :
    ∀ c ∈ (blankLines indent text).rest.head?, isBreak c = false := by
  fun_induction blankLines indent text with
  | case1 text hnone => exact isBreak_of_takeBreak?_none hnone
  | case2 text c after hsome more ih => exact ih

theorem head_blockLines (folded : Bool) (indent : Nat) {c : Char} (hc : isBreak c = false)
    (rest : List Char) : (blockLines folded indent (c :: rest)).text.head? = some c := by
  rw [blockLines]
  split
  dsimp only
  split <;> simp [hc]

/-- The lines of a block end with data, and with one line break at most. -/
theorem exists_blockLines (folded : Bool) (indent : Nat) {text : List Char} (hne : text ≠ [])
    (htext : ∀ c ∈ text.head?, isBreak c = false) :
    (blockLines folded indent text).lastBreak.length ≤ 1 ∧
      ∃ front c, (blockLines folded indent text).text = front ++ [c] ∧ isBreak c = false := by
  fun_induction blockLines folded indent text with
  | case1 text line rest lineBreak after hbreak blank h more ih =>
      obtain ⟨hlength, front, c, hfront, hc⟩ := ih h.2.1 (head_blankLines indent after)
      refine ⟨hlength, line ++ joint folded line lineBreak blank ++ blank.breaks ++ front, c, ?_,
        hc⟩
      rw [show more = _ from rfl, hfront]
      simp
  | case2 text line rest lineBreak after hbreak blank h =>
      constructor
      · split at hbreak <;> cases hbreak <;> simp
      · obtain ⟨c, more, rfl⟩ := List.exists_cons_of_ne_nil hne
        have hline : line ≠ [] := by simp [line, htext c rfl]
        refine ⟨line.dropLast, line.getLast hline, (List.dropLast_concat_getLast hline).symm, ?_⟩
        have hlast := List.mem_takeWhile_imp (List.getLast_mem hline)
        simpa using hlast

theorem head_dropWhile_append {front rest : List Char} (hfront : ∀ c ∈ front, c ≠ ' ')
    (hrest : ∀ c ∈ rest.head?, c ≠ ' ' ∧ isBreak c = false) :
    ((front ++ rest).dropWhile (· == '\n')).head? ≠ some ' ' := by
  induction front with
  | nil =>
      cases rest with
      | nil => simp
      | cons c rest =>
          obtain ⟨hspace, hbreak⟩ := hrest c rfl
          have hfeed : c ≠ '\n' := by
            rintro rfl
            simp [isBreak] at hbreak
          simpa [hfeed] using hspace
  | cons c front ih =>
      obtain ⟨hc, hfront⟩ := List.forall_mem_cons.mp hfront
      by_cases hbreak : c = '\n'
      · simpa [hbreak] using ih hfront
      · simpa [hbreak] using hc

/-- No block starts with a space behind line breaks. -/
theorem head_blockBody (folded : Bool) (parent : Int) (chomping : Chomping) (text : List Char) :
    ((blockBody folded parent chomping none text).1.dropWhile (· == '\n')).head? ≠ some ' ' := by
  obtain ⟨hbreaks, hrest⟩ := leadingLines_spec text
  simp only [blockBody]
  split
  · next h =>
    obtain ⟨c, rest, hcons⟩ := List.exists_cons_of_ne_nil h.2
    obtain ⟨hspace, hbreak⟩ := hrest c (by simp [hcons])
    have hlines := head_blockLines folded (max (max (parent + 1) 1).toNat (leadingLines text).2)
      hbreak rest
    obtain ⟨more, hmore⟩ := List.head?_eq_some_iff.mp hlines
    rw [hcons, hmore, List.append_assoc]
    exact head_dropWhile_append hbreaks (by simpa using ⟨hspace, hbreak⟩)
  · cases chomping with
    | clip => simp
    | strip => simp
    | keep =>
        have hnil : ∀ c ∈ ([] : List Char).head?, c ≠ ' ' ∧ isBreak c = false := by simp
        simpa using head_dropWhile_append hbreaks hnil

/-- A block without a sign for the line breaks at its end has one there at most. -/
theorem end_blockBody (folded : Bool) (parent : Int) (text : List Char) :
    ¬['\n', '\n'] <:+ (blockBody folded parent .clip none text).1 := by
  obtain ⟨-, hrest⟩ := leadingLines_spec text
  simp only [blockBody]
  split
  · next h =>
    obtain ⟨hlength, front, c, hfront, hc⟩ := exists_blockLines folded
      (max (max (parent + 1) 1).toNat (leadingLines text).2) h.2 fun c hc => (hrest c hc).2
    have hfeed : c ≠ '\n' := by
      rintro rfl
      simp [isBreak] at hc
    rw [hfront, ← List.reverse_prefix]
    generalize (blockLines _ _ _).lastBreak = last at hlength ⊢
    cases last with
    | nil => simp [hfeed.symm]
    | cons d more =>
        have hnil : more = [] := by
          rw [List.length_cons] at hlength
          exact List.length_eq_zero_iff.mp (by omega)
        simp [hnil, hfeed.symm]
  · simp

/-! ## Blocks behind keys -/

theorem isReadable_indented (width : Nat) {lines : List (List Char)}
    (h : ∀ line ∈ lines, ∀ c ∈ line, isReadable c = true) :
    ∀ c ∈ indented width lines, isReadable c = true := by
  intro c hc
  obtain ⟨line, hline, hc⟩ := List.mem_flatMap.mp hc
  simp only [List.mem_append, List.mem_singleton] at hc
  rcases hc with hc | hc | rfl
  · rw [List.eq_of_mem_replicate hc]
    decide
  · exact h line hline c hc
  · decide

/-- A block that reaches to the end of the text. -/
theorem readsToEnd_block {folded : Bool} {chars text : List Char}
    (h : blockScalar folded 0 chars = .ok (text, [])) :
    ReadsToEnd (' ' :: blockSign folded :: chars) false (String.ofList text) := by
  intro s found hbehind hindent
  have hgap : isGap (blockSign folded) = false := by cases folded <;> decide
  have hcomment : blockSign folded ≠ '#' := by cases folded <;> decide
  obtain ⟨hstands, -, -, hunwind⟩ := hbehind.skip hgap hcomment
  have hscalar : blockScalar folded s.skip.indent (s.skip.rest.drop 1) = .ok (text, []) := by
    have hparent : s.skip.indent = 0 := by
      rw [← hindent, ← hstands.blocks]
      rfl
    rwa [hparent, hstands.rest]
  have hinner : s.skip.inFlow = false := by
    rw [Scanner.inFlow, hstands.flow]
    rfl
  let next := ({ s.skip with keyAllowed := true } : Scanner).take
    (.scalar false (String.ofList text)) []
  have hblock : s.skip.block folded = .ok next := by
    rw [Scanner.block, Scanner.dropCurrent_eq hstands.flow hstands.candidate]
    simp only [bind, Except.bind, hscalar]
    rfl
  have htoken : s.skip.token (blockSign folded) chars = .ok next := by
    rw [← hblock]
    cases folded <;> simp [Scanner.token, blockSign, hinner]
  have hend : s.skip.Stands (blockSign folded :: chars ++ []) found := by
    simpa using hstands
  have hmeets : next.Meets 0 [] (found.write [.scalar false (String.ofList text)]) :=
    hend.meets_passed (.done 0) fun _ => rfl
  rw [hstands.run (by rw [hunwind]; exact htoken) (Nat.zero_le _)]
  exact hmeets.finish

end LayeredConfig.Yaml
