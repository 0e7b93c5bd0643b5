import LayeredConfig.Commented.Document
import LayeredConfig.Proofs.Commented.Blocks

/-! # Announced blocks

The sign of a block stands on the line of the key or below the comment there, and is chosen for the
width that is left behind the key. The lines below are made for the width that is left behind their
indentation. A text with line breaks has the same sign at both widths, and any other text if it
folds at both or at neither. -/

namespace LayeredConfig.Commented

open Text

variable {text : String} {width : Int} {form : ValueForm}

/-! ## Signs of texts -/

/-- Several words in one line, without anything special, that exceed the width, but not each of them
does. -/
def Folds (text : String) (width : Int) : Prop :=
  '\n' ∉ text.toList ∧ hasOuterSpace text.toList = false ∧ hasSpecial text.toList = false ∧
    2 ≤ (words text.toList).length ∧ fits width text.toList.length = false ∧
      ∃ word ∈ words text.toList, word.length ≤ width.toNat

instance (text : String) (width : Int) : Decidable (Folds text width) :=
  inferInstanceAs (Decidable (_ ∧ _ ∧ _ ∧ _ ∧ _ ∧
    ∃ word ∈ words text.toList, word.length ≤ width.toNat))

namespace ValueForm

theorem words_of_isAllBlank {text : List Char} (h : isAllBlank text = true) : words text = [] := by
  have hdrop : text.dropWhile isBlank = [] := by
    simpa [isAllBlank] using h
  rw [words]
  split
  · rfl
  · next heq => rw [hdrop] at heq; cases heq

theorem fits_of_fits_add {width : Int} {length more : Nat} (h : fits width (length + more) = true) :
    fits width length = true := by
  simp only [fits, Bool.or_eq_true, decide_eq_true_eq] at h ⊢
  omega

/-- Line breaks admit no other form but a literal block. -/
theorem ofText_of_literal? (h : literal? text = some form) (width : Int) :
    ofText text width = form := by
  have hsome : literal? text ≠ none := by simp [h]
  rw [Ne, literal?_eq_none_iff, not_or, not_not, Bool.not_eq_true] at hsome
  obtain ⟨hbreak, hblank⟩ := hsome
  simp [ofText, plain?, singleQuoted?, blank?, outerSpace?, hbreak, hblank, h]

/-- A text that fits no width and is not blank or spaced at its ends is folded if it can be. -/
theorem ofText_of_folded? (hbreak : '\n' ∉ text.toList) (houter : hasOuterSpace text.toList = false)
    (h : folded? text width = some form) : ofText text width = form := by
  obtain ⟨first, rest, hwords, -⟩ := of_folded? h
  have hlong : fits width text.toList.length = false := by
    by_contra hfits
    rw [Bool.not_eq_false] at hfits
    simp [folded?, hfits] at h
  have hblank : isAllBlank text.toList = false := by
    by_contra hall
    rw [Bool.not_eq_false] at hall
    simp [words_of_isAllBlank hall] at hwords
  have hlonger : fits width (text.toList.length + 2) = false := by
    by_contra hfits
    rw [Bool.not_eq_false] at hfits
    exact Bool.false_ne_true (hlong.symm.trans (fits_of_fits_add hfits))
  have hliteral : literal? text = none := literal?_eq_none_iff.mpr (.inl hbreak)
  simp only [ofText, plain?, singleQuoted?, hlong, hlonger, Bool.and_false, Bool.false_eq_true,
    if_false, Option.none_or, blank?, hblank, outerSpace?, houter, Bool.false_and, hliteral, h]
  rfl

theorem isSome_folded?_iff :
    (folded? text width).isSome ↔ hasSpecial text.toList = false ∧
      2 ≤ (words text.toList).length ∧ fits width text.toList.length = false ∧
        ∃ word ∈ words text.toList, word.length ≤ width.toNat := by
  rw [folded?]
  by_cases hlong : fits width text.toList.length = true
  · simp [hlong]
  by_cases hspecial : hasSpecial text.toList = true
  · simp [hspecial]
  rw [Bool.not_eq_true] at hlong hspecial
  rw [hlong, hspecial, Bool.or_self, if_neg Bool.false_ne_true]
  split
  · next first second rest hwords =>
    rw [hwords]
    by_cases hfit : ((first :: second :: rest).any fun word => word.length ≤ width.toNat) = true
    · rw [if_pos hfit]
      simpa using hfit
    · rw [if_neg hfit]
      simpa using hfit
  · next hfew =>
    constructor
    · intro hsome
      cases hsome
    · rintro ⟨-, hlength, -⟩
      rcases hwords : words text.toList with _ | ⟨first, _ | ⟨second, rest⟩⟩
      · simp [hwords] at hlength
      · simp [hwords] at hlength
      · exact absurd hwords (hfew first second rest)

/-- Without literal lines a text has a sign if and only if it folds. -/
theorem sign_ofText (hliteral : literal? text = none) (width : Int) :
    (ofText text width).sign = if Folds text width then some .folded else none := by
  split
  · next h =>
    obtain ⟨hbreak, houter, hfolds⟩ := h
    obtain ⟨form, hform⟩ := Option.isSome_iff_exists.mp (isSome_folded?_iff.mpr hfolds)
    obtain ⟨first, rest, -, hsigned⟩ := of_folded? hform
    rw [ofText_of_folded? hbreak houter hform, hsigned]
  · next h =>
    by_contra hsign
    rcases of_sign rfl hsign with hsome | ⟨hbreak, houter, hform⟩
    · rw [hliteral] at hsome
      cases hsome
    · exact h ⟨hbreak, houter, isSome_folded?_iff.mp (Option.isSome_of_eq_some hform)⟩

theorem sign_ofText_eq_none_iff :
    (ofText text width).sign = none ↔ literal? text = none ∧ ¬Folds text width := by
  cases hliteral : literal? text with
  | some form =>
      obtain ⟨front, sign, -, -, -, -, rfl⟩ := of_literal? hliteral
      rw [ofText_of_literal? hliteral]
      simp
  | none =>
      rw [sign_ofText hliteral]
      simp

/-- The sign of a text is the same for two widths if and only if it folds within both or neither. -/
theorem sign_ofText_eq_iff {first second : Int} :
    (ofText text first).sign = (ofText text second).sign ↔
      (Folds text first ↔ Folds text second) := by
  cases hliteral : literal? text with
  | some form =>
      have hbreak : '\n' ∈ text.toList := by
        by_contra hnot
        rw [literal?_eq_none_iff.mpr (.inl hnot)] at hliteral
        cases hliteral
      rw [ofText_of_literal? hliteral, ofText_of_literal? hliteral]
      simp [Folds, hbreak]
  | none =>
      rw [sign_ofText hliteral, sign_ofText hliteral]
      by_cases hfirst : Folds text first <;> by_cases hsecond : Folds text second <;>
        simp [hfirst, hsecond]

/-! ## Lines with data -/

theorem not_isAllBlank {chars : List Char} {c : Char} (hc : c ∈ chars) (h : isBlank c = false) :
    isAllBlank chars = false := List.all_eq_false.mpr ⟨c, hc, by simp [h]⟩

theorem exists_line_of_mem {c : Char} {chars : List Char} (hc : c ∈ chars) (hfeed : c ≠ '\n') :
    ∃ line ∈ Text.lines chars, c ∈ line := by
  induction chars using lines_induction with
  | last line hline => exact ⟨line, by simp [lines_of_not_mem hline], hc⟩
  | more line rest hline ih =>
      rw [lines_cons hline]
      rcases List.mem_append.mp hc with hc | hc
      · exact ⟨line, List.mem_cons_self, hc⟩
      · obtain ⟨other, hother, hc⟩ := ih (List.mem_of_ne_of_mem hfeed hc)
        exact ⟨other, List.mem_cons_of_mem _ hother, hc⟩

/-- Quotation marks, and the backslash that stands for characters within them. -/
def isQuoting (c : Char) : Bool := c == '\'' || c == '"' || c == '\\'

/-- A text in double quotes starts with one, or breaks behind a backslash. -/
theorem exists_quoting_chunk (text : String) (width : Int) :
    ∃ line ∈ chunk text width, ∃ c ∈ line.toList, isQuoting c = true := by
  have hquote : '"' ∈ inQuotes text.toList := by
    rw [inQuotes]
    split
    · next hhead => exact List.mem_of_mem_head? (by simpa using hhead)
    · simp
  rw [chunk]
  split
  · exact ⟨_, List.mem_singleton_self _, '"', by simpa using hquote, rfl⟩
  · rw [cutLines]
    split
    · exact ⟨_, List.mem_singleton_self _, '"', by simpa using hquote, rfl⟩
    · exact ⟨_, List.mem_cons_self, '\\', by simp, rfl⟩

theorem isAllBlank_of_plain? (h : plain? text width = some form) :
    isAllBlank text.toList = false := by
  obtain ⟨-, hne, houter, -⟩ := of_plain? h
  obtain ⟨c, rest, htext⟩ := List.exists_cons_of_ne_nil hne
  have hbreak : '\n' ∉ text.toList := by
    intro hmem
    simp [plain?, hmem] at h
  have hfeed : c ≠ '\n' := by
    rintro rfl
    simp [htext] at hbreak
  rw [hasOuterSpace, htext] at houter
  refine not_isAllBlank (htext ▸ List.mem_cons_self) ?_
  simpa [hfeed] using (Bool.or_eq_false_iff.mp houter).1

/-- White space is written in a single line of quotes, whatever its line breaks. -/
theorem single_of_isAllBlank (h : isAllBlank text.toList = true) (width : Int) :
    (ofText text width).sign = none ∧ (ofText text width).lines.length = 1 := by
  obtain ⟨form, hform⟩ : ∃ form, ofText text width = form := ⟨_, rfl⟩
  rw [hform]
  rcases getD_or hform with hplain | ⟨-, hform⟩
  · rw [isAllBlank_of_plain? hplain] at h
    cases h
  rcases getD_or hform with hsingle | ⟨-, hform⟩
  · rw [singleQuoted?, Option.ite_none_right_eq_some] at hsingle
    rw [← Option.some.inj hsingle.2]
    exact ⟨rfl, rfl⟩
  · rw [blank?, if_pos h, Option.some_or, Option.getD_some] at hform
    rw [← hform]
    exact ⟨rfl, rfl⟩

/-- Without a sign a text is written bare or in quotes. -/
theorem bare_or_quoting (h : ofText text width = form) (hsign : form.sign = none) :
    form.lines = [text] ∧ isAllBlank text.toList = false ∨
      ∃ line ∈ form.lines, ∃ c ∈ line.toList, isQuoting c = true := by
  rcases getD_or h with hplain | ⟨-, h⟩
  · obtain ⟨rfl, -⟩ := of_plain? hplain
    exact .inl ⟨rfl, isAllBlank_of_plain? hplain⟩
  rcases getD_or h with hsingle | ⟨-, h⟩
  · rw [singleQuoted?, Option.ite_none_right_eq_some] at hsingle
    rw [← Option.some.inj hsingle.2]
    exact .inr ⟨_, List.mem_singleton_self _, '\'', by simp, rfl⟩
  rcases getD_or h with hblank | ⟨hblank, h⟩
  · rw [blank?, Option.ite_none_right_eq_some] at hblank
    rw [← Option.some.inj hblank.2]
    exact .inr ⟨_, List.mem_singleton_self _, '"', by simp, rfl⟩
  rcases getD_or h with houter | ⟨-, h⟩
  · rw [outerSpace?, Option.ite_none_right_eq_some] at houter
    rw [← Option.some.inj houter.2]
    exact .inr (exists_quoting_chunk _ width)
  rcases getD_or h with hliteral | ⟨-, h⟩
  · obtain ⟨front, sign, -, -, -, -, rfl⟩ := of_literal? hliteral
    cases hsign
  cases hfolded : folded? text width with
  | some other =>
      rw [hfolded, Option.getD_some] at h
      subst h
      obtain ⟨first, rest, -, rfl⟩ := of_folded? hfolded
      cases hsign
  | none =>
      rw [hfolded, Option.getD_none, doubleQuoted] at h
      split at h
      · rw [← h]
        exact .inr (exists_quoting_chunk _ width)
      · rw [← h, escaped]
        split
        · exact .inl ⟨rfl, by simpa [blank?] using hblank⟩
        · exact .inr ⟨_, List.mem_singleton_self _, '"', by simp [jsonQuoted], rfl⟩

/-- No value is written as white space only. -/
theorem exists_data_line (text : String) (width : Int) :
    ∃ line ∈ (ofText text width).lines, isAllBlank line.toList = false := by
  obtain ⟨form, hform⟩ : ∃ form, ofText text width = form := ⟨_, rfl⟩
  rw [hform]
  by_cases hsign : form.sign = none
  · rcases bare_or_quoting hform hsign with ⟨hlines, hdata⟩ | ⟨line, hline, c, hc, hquoting⟩
    · exact ⟨text, by simp [hlines], hdata⟩
    · refine ⟨line, hline, not_isAllBlank hc ?_⟩
      simp only [isQuoting, Bool.or_eq_true, beq_iff_eq] at hquoting
      rcases hquoting with (rfl | rfl) | rfl <;> decide
  rcases of_sign hform hsign with hliteral | ⟨-, -, hfolded⟩
  · obtain ⟨front, sign, hdata, -, -, -, rfl⟩ := of_literal? hliteral
    obtain ⟨c, hfront, hblank⟩ := List.all_eq_false.mp hdata
    rw [Bool.not_eq_true] at hblank
    have hfeed : c ≠ '\n' := by
      rintro rfl
      exact absurd hblank (by decide)
    obtain ⟨line, hline, hc⟩ := exists_line_of_mem hfront hfeed
    exact ⟨_, List.mem_map_of_mem hline, not_isAllBlank (by simpa using hc) hblank⟩
  · obtain ⟨first, rest, hwords, rfl⟩ := of_folded? hfolded
    have hword : ∀ word ∈ first :: rest, WordLine word := fun word hmem =>
      .of_mem_words (hwords ▸ hmem)
    obtain ⟨line, more, hfill⟩ := List.exists_cons_of_ne_nil (fill_ne_nil width.toNat first rest)
    have hline := wordLine_fill width.toNat (hword first List.mem_cons_self)
      (fun word hmem => hword word (List.mem_cons_of_mem _ hmem)) line (by simp [hfill])
    obtain ⟨c, hc, hblank⟩ := hline.starts
    refine ⟨String.ofList line, by simp [hfill], not_isAllBlank (c := c) ?_ hblank⟩
    simpa using List.mem_of_mem_head? hc

/-! ## Lines of different forms -/

theorem subset_words {word chars : List Char} (h : word ∈ words chars) : word ⊆ chars := by
  fun_induction words chars with
  | case1 => simp at h
  | case2 chars c rest hdrop ih =>
      have hsub : c :: rest ⊆ chars := hdrop ▸ (List.dropWhile_suffix isBlank).subset
      rcases List.mem_cons.mp h with rfl | h
      · exact List.Subset.trans (List.cons_subset_cons c (List.takeWhile_prefix _).subset) hsub
      · have hrest := List.Subset.trans (ih h) (List.dropWhile_suffix _).subset
        exact fun d hd => hsub (List.mem_cons_of_mem c (hrest hd))

theorem mem_fill {count : Nat} {current line : List Char} {rest : List (List Char)} {c : Char}
    (hline : line ∈ fill count current rest) (hc : c ∈ line) :
    c = ' ' ∨ ∃ word ∈ current :: rest, c ∈ word := by
  induction rest generalizing current with
  | nil =>
      obtain rfl : line = current := by simpa [fill] using hline
      exact .inr ⟨line, List.mem_cons_self, hc⟩
  | cons word rest ih =>
      rw [fill] at hline
      split at hline
      · rcases ih hline with rfl | ⟨other, hother, hc⟩
        · exact .inl rfl
        · simp only [List.mem_cons] at hother ⊢
          rcases hother with rfl | hother
          · rcases List.mem_append.mp hc with hc | hc
            · exact .inr ⟨current, .inl rfl, hc⟩
            · rcases List.mem_cons.mp hc with rfl | hc
              · exact .inl rfl
              · exact .inr ⟨word, .inr (.inl rfl), hc⟩
          · exact .inr ⟨other, .inr (.inr hother), hc⟩
      · rcases List.mem_cons.mp hline with rfl | hline
        · exact .inr ⟨line, List.mem_cons_self, hc⟩
        · obtain rfl | ⟨other, hother, hc⟩ := ih hline
          · exact .inl rfl
          · exact .inr ⟨other, List.mem_cons_of_mem current hother, hc⟩

/-- Several words in a single line are within the width. -/
theorem length_le_of_fill {count : Nat} {current line : List Char} {rest : List (List Char)}
    (hrest : rest ≠ []) (h : fill count current rest = [line]) : line.length ≤ count := by
  induction rest generalizing current with
  | nil => exact absurd rfl hrest
  | cons word rest ih =>
      rw [fill] at h
      split at h
      · next hfits =>
        by_cases hmore : rest = []
        · subst hmore
          obtain rfl : current ++ ' ' :: word = line := by simpa [fill] using h
          rw [List.length_append, List.length_cons]
          omega
        · exact ih hmore h
      · exact absurd (List.cons.inj h).2 (fill_ne_nil count word rest)

/-- A text that is folded within one width has other lines than without a sign, at any width. -/
theorem lines_ne_of_folded? {folded : ValueForm} {other : Int}
    (hfolded : folded? text other = some folded) (hform : ofText text width = form)
    (hsign : form.sign = none) : form.lines ≠ folded.lines := by
  intro hlines
  obtain ⟨hspecial, hmany, hlong, -⟩ := isSome_folded?_iff.mp (Option.isSome_of_eq_some hfolded)
  obtain ⟨first, rest, hwords, rfl⟩ := of_folded? hfolded
  rcases bare_or_quoting hform hsign with ⟨hbare, -⟩ | ⟨line, hline, c, hc, hquoting⟩
  · rw [hbare] at hlines
    obtain ⟨chars, hfill, hchars⟩ := List.map_eq_singleton_iff.mp hlines.symm
    have hrest : rest ≠ [] := by
      rintro rfl
      simp [hwords] at hmany
    have hle := length_le_of_fill hrest hfill
    rw [← hchars, String.toList_ofList] at hlong
    simp [fits] at hlong
    omega
  · rw [hlines] at hline
    obtain ⟨chars, hmem, rfl⟩ := List.mem_map.mp hline
    rw [String.toList_ofList] at hc
    rcases mem_fill hmem hc with rfl | ⟨word, hword, hc⟩
    · exact absurd hquoting (by decide)
    · have htext : c ∈ text.toList := subset_words (hwords ▸ hword) hc
      simp only [hasSpecial, Bool.or_eq_false_iff, List.any_eq_false] at hspecial
      obtain ⟨⟨hspecial, hbackslash⟩, -⟩ := hspecial
      simp only [isQuoting, Bool.or_eq_true, beq_iff_eq] at hquoting
      rcases hquoting with (rfl | rfl) | rfl
      · exact hspecial _ htext (by decide)
      · exact hspecial _ htext (by decide)
      · simp [htext] at hbackslash

/-- A text has the same sign wherever it has the same lines. -/
theorem sign_eq_of_lines_eq {first second : Int}
    (h : (ofText text first).lines = (ofText text second).lines) :
    (ofText text first).sign = (ofText text second).sign := by
  cases hliteral : literal? text with
  | some form => rw [ofText_of_literal? hliteral, ofText_of_literal? hliteral]
  | none =>
      have hfolded : ∀ {width : Int}, (ofText text width).sign ≠ none →
          folded? text width = some (ofText text width) := by
        intro width hsign
        rcases of_sign rfl hsign with hsome | ⟨-, -, hfolded⟩
        · rw [hliteral] at hsome
          cases hsome
        · exact hfolded
      by_cases hfirst : (ofText text first).sign = none
      · by_cases hsecond : (ofText text second).sign = none
        · rw [hfirst, hsecond]
        · exact absurd h (lines_ne_of_folded? (hfolded hsecond) rfl hfirst)
      · by_cases hsecond : (ofText text second).sign = none
        · exact absurd h.symm (lines_ne_of_folded? (hfolded hfirst) rfl hsecond)
        · rw [sign_ofText hliteral] at hfirst hsecond ⊢
          rw [sign_ofText hliteral, if_pos (ite_ne_right_iff.mp hfirst).1,
            if_pos (ite_ne_right_iff.mp hsecond).1]

end ValueForm

/-! ## Values of entries -/

namespace Layout

variable (layout : Layout) (level : Int) (key : Option String) (behind : List String)

/-- A line with a comment behind it, in the column of comments. -/
def commented (line : String) : String :=
  match behind with
  | [comment] =>
    let spaces := max (layout.commentColumn - line.length) 1
    line ++ (String.ofList (List.replicate spaces.toNat ' ') ++ "# " ++ comment)
  | _ => line

/-- The line of an entry; on a negative level there is none. -/
def entryLine (line : String) : String :=
  if level < 0 then "" else layout.commented behind line ++ "\n"

def indentedLines (lines : List String) : String :=
  String.join (lines.map fun line => layout.indent (level + 1) ++ line ++ "\n")

/-- The ways in which the sign and the lines of a value are put into the text of an entry with at
most one comment. -/
inductive Announces : Option BlockSign → List String → String → Prop
  /-- A single line behind the key. -/
  | beside {line : String} :
      Announces none [line]
        (layout.entryLine level behind (layout.opening level key ++ " " ++ line))
  /-- Lines that nothing announces. -/
  | below {lines : List String} :
      Announces none lines (layout.entryLine level behind (layout.opening level key ++ " ") ++
        layout.indentedLines level lines)
  /-- Lines below a sign that stands behind the key. -/
  | behindKey {sign : BlockSign} {lines : List String} (hlevel : 0 ≤ level)
      (hbehind : behind = []) :
      Announces (some sign) lines
        (layout.entryLine level behind (layout.opening level key ++ " " ++ sign.toText) ++
          layout.indentedLines level lines)
  /-- Lines below a sign on a line of its own, below the comment. -/
  | underComment {sign : BlockSign} {lines : List String} (hbehind : behind ≠ []) :
      Announces (some sign) lines (layout.entryLine level behind (layout.opening level key) ++
        layout.indentedLines level (sign.toText :: lines))

/-- The width that is left for a value behind its key. -/
def keyWidth : Int := layout.widthBehind ((layout.opening level key).length - 1)

/-- The width that is left for the lines below an entry. -/
def lineWidth : Int := layout.widthBehind (layout.indent (level + 1)).length

/-- Whether a value is a single line behind its key. -/
def IsBeside (text : String) : Prop :=
  (ValueForm.ofText text (layout.keyWidth level key)).sign = none ∧
    (ValueForm.ofText text (layout.keyWidth level key)).lines.length = 1

instance (text : String) : Decidable (layout.IsBeside level key text) :=
  inferInstanceAs (Decidable (_ ∧ _))

/-- The sign that an entry announces; on a negative level it takes a comment to do so. -/
def announced (text : String) : Option BlockSign :=
  if level < 0 ∧ behind = [] then none
  else (ValueForm.ofText text (layout.keyWidth level key)).sign

/-- The lines of a value that an entry prints. -/
def printed (text : String) : List String :=
  (ValueForm.ofText text (if layout.IsBeside level key text then layout.keyWidth level key
    else layout.lineWidth level)).lines

variable {layout level key behind}

theorem formBehind_some (text : String) (isParent : Bool) :
    layout.formBehind (layout.opening level key) (some text) isParent =
      ValueForm.ofText text (layout.keyWidth level key) := by
  rw [formBehind, Option.isNone_some, Bool.false_and, if_neg Bool.false_ne_true]
  rfl

theorem subset_commented (line : String) :
    line.toList ⊆ (layout.commented behind line).toList := by
  intro c hc
  unfold commented
  split
  · simp [hc]
  · exact hc

/-- The text of an entry from its line and the lines below it. -/
theorem body_eq {text line below : String} {isParent : Bool} {form : ValueForm}
    (hform : ValueForm.ofText text (layout.keyWidth level key) = form)
    (hmain : layout.mainLine (layout.opening level key) behind form =
      layout.commented behind line ++ "\n")
    (hbelow : String.join (layout.linesBelow level behind form (some text)) = below)
    (hline : ∃ c ∈ line.toList, isBlank c = false)
    (hdata : below = "" ∨ isAllBlank below.toList = false) :
    layout.body level key (some text) behind isParent =
      layout.entryLine level behind line ++ below := by
  have hshown : (if level < 0 then ""
      else layout.mainLine (layout.opening level key) behind form) =
        layout.entryLine level behind line := by
    rw [hmain, entryLine]
  rw [body]
  simp only [formBehind_some, hform, hshown, hbelow]
  by_cases hall : isAllBlank (layout.entryLine level behind line ++ below).toList = true
  · rw [if_pos hall]
    rw [String.toList_append, isAllBlank, List.all_append, Bool.and_eq_true] at hall
    obtain ⟨hentry, hrest⟩ := hall
    rcases hdata with rfl | hdata
    · rw [entryLine] at hentry ⊢
      split at hentry
      · next hlevel => rw [if_pos hlevel]; rfl
      · obtain ⟨c, hc, hblank⟩ := hline
        have hmem : c ∈ (layout.commented behind line ++ "\n").toList := by
          simp [subset_commented line hc]
        have hnot : isAllBlank (layout.commented behind line ++ "\n").toList = false :=
          ValueForm.not_isAllBlank hmem hblank
        rw [isAllBlank, hentry] at hnot
        cases hnot
    · rw [isAllBlank, hrest] at hdata
      cases hdata
  · rw [if_neg hall]

theorem exists_data_opening (layout : Layout) (level : Int) (key : Option String) (more : String) :
    ∃ c ∈ (layout.opening level key ++ more).toList, isBlank c = false := by
  cases key with
  | none => exact ⟨'-', by simp [opening], by decide⟩
  | some key => exact ⟨':', by simp [opening], by decide⟩

theorem mainLine_single {line : String} (hbehind : behind.length ≤ 1) (opening : String) :
    layout.mainLine opening behind { lines := [line] } =
      layout.commented behind (opening ++ " " ++ line) ++ "\n" := by
  rcases behind with _ | ⟨comment, _ | ⟨other, more⟩⟩
  · simp [mainLine, commented]
  · simp [mainLine, commented]
  · simp at hbehind

theorem mainLine_several {first second : String} {more : List String} (hbehind : behind.length ≤ 1)
    (opening : String) :
    layout.mainLine opening behind { lines := first :: second :: more } =
      layout.commented behind (opening ++ " ") ++ "\n" := by
  rcases behind with _ | ⟨comment, _ | ⟨other, more⟩⟩
  · simp [mainLine, commented]
  · simp [mainLine, commented]
  · simp at hbehind

theorem mainLine_sign (sign : BlockSign) (lines : List String) (opening : String) :
    layout.mainLine opening [] { lines, sign := some sign } =
      layout.commented [] (opening ++ " " ++ sign.toText) ++ "\n" := by
  simp [mainLine, commented, toString, String.append_assoc]

theorem mainLine_comment (sign : BlockSign) (lines : List String) (comment opening : String) :
    layout.mainLine opening [comment] { lines, sign := some sign } =
      layout.commented [comment] opening ++ "\n" := by
  simp [mainLine, commented]

/-- The lines below an entry, and the sign if it stands there. -/
theorem join_linesBelow {form : ValueForm} (hbehind : behind.length ≤ 1)
    (hform : 1 < form.lines.length ∨ form.sign ≠ none) (text : String) :
    String.join (layout.linesBelow level behind form (some text)) =
      layout.indentedLines level
        ((if behind.isEmpty then [] else form.sign.toList.map BlockSign.toText) ++
          (ValueForm.ofText text (layout.lineWidth level)).lines) := by
  have hcomments : ¬1 < behind.length := not_lt.mpr hbehind
  have hvalues : (behind.length ≤ 1 && form.lines.length ≤ 1 && form.sign.isNone) = false := by
    rcases hform with hlines | hsign
    · simp [hlines]
    · cases h : form.sign with
      | none => exact absurd h hsign
      | some sign => simp
  rw [linesBelow, hvalues]
  simp only [if_neg hcomments, Bool.false_eq_true, if_false, List.nil_append]
  rfl

theorem join_linesBelow_single (hbehind : behind.length ≤ 1) (line text : String) :
    String.join (layout.linesBelow level behind { lines := [line] } (some text)) = "" := by
  have hcomments : ¬1 < behind.length := not_lt.mpr hbehind
  simp [linesBelow, hcomments, hbehind]

theorem exists_data_indentedLines {lines : List String}
    (h : ∃ line ∈ lines, isAllBlank line.toList = false) :
    isAllBlank (layout.indentedLines level lines).toList = false := by
  obtain ⟨line, hline, hdata⟩ := h
  obtain ⟨c, hc, hblank⟩ := List.all_eq_false.mp hdata
  rw [Bool.not_eq_true] at hblank
  refine ValueForm.not_isAllBlank ?_ hblank
  rw [indentedLines, String.toList_join, List.mem_flatMap]
  exact ⟨_, List.mem_map_of_mem hline, by simp [hc]⟩

theorem announces_beside {line : String} (hbehind : behind.length ≤ 1) (isParent : Bool)
    (hform : ValueForm.ofText text (layout.keyWidth level key) = { lines := [line] }) :
    layout.Announces level key behind none [line]
      (layout.body level key (some text) behind isParent) := by
  have hline := exists_data_opening layout level key (" " ++ line)
  rw [← String.append_assoc] at hline
  rw [body_eq hform (mainLine_single hbehind _) (join_linesBelow_single hbehind line text) hline
    (.inl rfl), String.append_empty]
  exact .beside

theorem announces_below {first second : String} {more : List String} (hbehind : behind.length ≤ 1)
    (isParent : Bool)
    (hform : ValueForm.ofText text (layout.keyWidth level key) =
      { lines := first :: second :: more }) :
    layout.Announces level key behind none (ValueForm.ofText text (layout.lineWidth level)).lines
      (layout.body level key (some text) behind isParent) := by
  have hjoin : String.join (layout.linesBelow level behind { lines := first :: second :: more }
      (some text)) =
        layout.indentedLines level (ValueForm.ofText text (layout.lineWidth level)).lines := by
    rw [join_linesBelow hbehind (.inl (by simp))]
    simp
  rw [body_eq hform (mainLine_several hbehind _) hjoin (exists_data_opening layout level key " ")
    (.inr (exists_data_indentedLines (ValueForm.exists_data_line text _)))]
  exact .below

/-- Without a comment the sign stands behind the key, if there is a line with the key. -/
theorem announces_behindKey {lines : List String} {sign : BlockSign} (isParent : Bool)
    (hform : ValueForm.ofText text (layout.keyWidth level key) = { lines, sign := some sign }) :
    layout.Announces level key [] (if level < 0 then none else some sign)
      (ValueForm.ofText text (layout.lineWidth level)).lines
      (layout.body level key (some text) [] isParent) := by
  have hjoin : String.join (layout.linesBelow level [] { lines, sign := some sign } (some text)) =
      layout.indentedLines level (ValueForm.ofText text (layout.lineWidth level)).lines := by
    rw [join_linesBelow (by simp) (.inr (by simp))]
    simp
  have hline := exists_data_opening layout level key (" " ++ sign.toText)
  rw [← String.append_assoc] at hline
  rw [body_eq hform (mainLine_sign sign lines _) hjoin hline
    (.inr (exists_data_indentedLines (ValueForm.exists_data_line text _)))]
  by_cases hneg : level < 0
  · have hbelow : layout.Announces level key [] none
        (ValueForm.ofText text (layout.lineWidth level)).lines
        (layout.entryLine level [] _ ++ layout.indentedLines level _) := .below
    rw [entryLine, if_pos hneg] at hbelow ⊢
    rwa [if_pos hneg]
  · rw [if_neg hneg]
    exact .behindKey (not_lt.mp hneg) rfl

theorem announces_underComment {lines : List String} {sign : BlockSign} (comment : String)
    (isParent : Bool)
    (hform : ValueForm.ofText text (layout.keyWidth level key) = { lines, sign := some sign }) :
    layout.Announces level key [comment] (some sign)
      (ValueForm.ofText text (layout.lineWidth level)).lines
      (layout.body level key (some text) [comment] isParent) := by
  have hjoin : String.join (layout.linesBelow level [comment] { lines, sign := some sign }
      (some text)) = layout.indentedLines level
        (sign.toText :: (ValueForm.ofText text (layout.lineWidth level)).lines) := by
    rw [join_linesBelow (by simp) (.inr (by simp))]
    simp
  have hdata : ∃ line ∈ sign.toText :: (ValueForm.ofText text (layout.lineWidth level)).lines,
      isAllBlank line.toList = false := by
    obtain ⟨line, hline, hdata⟩ := ValueForm.exists_data_line text (layout.lineWidth level)
    exact ⟨line, List.mem_cons_of_mem _ hline, hdata⟩
  have hline := exists_data_opening layout level key ""
  rw [String.append_empty] at hline
  rw [body_eq hform (mainLine_comment sign lines comment _) hjoin hline
    (.inr (exists_data_indentedLines hdata))]
  exact .underComment (List.cons_ne_nil _ _)

/-- The text of an entry shows the sign that it announces and the lines that it prints. -/
theorem announces_body (hbehind : behind.length ≤ 1) (text : String) (isParent : Bool) :
    layout.Announces level key behind (layout.announced level key behind text)
      (layout.printed level key text) (layout.body level key (some text) behind isParent) := by
  obtain ⟨⟨lines, sign⟩, hform⟩ :
      ∃ form, ValueForm.ofText text (layout.keyWidth level key) = form := ⟨_, rfl⟩
  rcases sign with _ | sign
  · rw [announced, hform, ite_self, printed]
    rcases lines with _ | ⟨first, _ | ⟨second, more⟩⟩
    · obtain ⟨line, hline, -⟩ := ValueForm.exists_data_line text (layout.keyWidth level key)
      simp [hform] at hline
    · have hbeside : layout.IsBeside level key text := by simp [IsBeside, hform]
      rw [if_pos hbeside, hform]
      exact announces_beside hbehind isParent hform
    · have hbeside : ¬layout.IsBeside level key text := by simp [IsBeside, hform]
      rw [if_neg hbeside]
      exact announces_below hbehind isParent hform
  · have hbeside : ¬layout.IsBeside level key text := by simp [IsBeside, hform]
    rw [announced, hform, printed, if_neg hbeside]
    rcases behind with _ | ⟨comment, others⟩
    · simpa using announces_behindKey isParent hform
    · obtain rfl : others = [] := by simpa using hbehind
      simpa using announces_underComment comment isParent hform

/-- The text of an entry shows a sign and lines, and these come from one form of the value exactly
if the value folds within the width behind the key and within that of its lines or within neither,
unless it is a single line behind its key. On a negative level, where only a comment makes room for
a sign, the lines must not need one. -/
theorem announces_body_iff (hbehind : behind.length ≤ 1) (text : String) (isParent : Bool) :
    layout.Announces level key behind (layout.announced level key behind text)
      (layout.printed level key text) (layout.body level key (some text) behind isParent) ∧
    ((∃ width, ValueForm.ofText text width =
        ⟨layout.printed level key text, layout.announced level key behind text⟩) ↔
      layout.IsBeside level key text ∨
        if level < 0 ∧ behind = [] then
          '\n' ∉ text.toList ∧ ¬Folds text (layout.lineWidth level)
        else Folds text (layout.keyWidth level key) ↔ Folds text (layout.lineWidth level)) := by
  refine ⟨announces_body hbehind text isParent, ?_⟩
  by_cases hbeside : layout.IsBeside level key text
  · refine iff_of_true ⟨layout.keyWidth level key, ?_⟩ (.inl hbeside)
    rw [printed, if_pos hbeside, announced, hbeside.1, ite_self, ← hbeside.1]
  rw [or_iff_right hbeside, printed, if_neg hbeside]
  have hwidth : (∃ width, ValueForm.ofText text width =
      ⟨(ValueForm.ofText text (layout.lineWidth level)).lines,
        layout.announced level key behind text⟩) ↔
        layout.announced level key behind text =
          (ValueForm.ofText text (layout.lineWidth level)).sign := by
    constructor
    · rintro ⟨width, hform⟩
      have hlines : (ValueForm.ofText text width).lines =
          (ValueForm.ofText text (layout.lineWidth level)).lines := by rw [hform]
      rw [← ValueForm.sign_eq_of_lines_eq hlines, hform]
    · intro hsign
      exact ⟨layout.lineWidth level, by rw [hsign]⟩
  rw [hwidth, announced]
  split
  · have hdata : isAllBlank text.toList = false := by
      by_contra hall
      rw [Bool.not_eq_false] at hall
      exact hbeside (ValueForm.single_of_isAllBlank hall _)
    rw [eq_comm, ValueForm.sign_ofText_eq_none_iff, ValueForm.literal?_eq_none_iff, hdata]
    simp
  · exact ValueForm.sign_ofText_eq_iff

/-- A folded text whose width behind the key is one more than that of its lines. -/
theorem announces_body_folded :
    body ⟨12, 0, 0⟩ 0 (some "k") (some "alpha beta gamma") [] false =
        "k: >-\n  alpha beta\n  gamma\n" ∧
      ∃ width, ValueForm.ofText "alpha beta gamma" width =
        ⟨printed ⟨12, 0, 0⟩ 0 (some "k") "alpha beta gamma",
          announced ⟨12, 0, 0⟩ 0 (some "k") [] "alpha beta gamma"⟩ :=
  ⟨by decide +kernel,
    (announces_body_iff (by decide) "alpha beta gamma" false).2.mpr (by decide +kernel)⟩

/-- The text does not fit behind the key, but in a line of its own, where it stands in quotes that
are then part of a folded block. -/
theorem body_announced_quoted :
    body ⟨10, 0, 0⟩ 0 (some "keykey") (some "-a bb") [] false = "keykey: >-\n  '-a bb'\n" ∧
      ∀ width, ValueForm.ofText "-a bb" width ≠
        { lines := ["'-a bb'"], sign := some .folded } := by
  constructor
  · decide +kernel
  · intro width hform
    rcases ValueForm.of_sign hform (by simp) with hliteral | ⟨-, -, hfolded⟩
    · have hnone : ValueForm.literal? "-a bb" = none := by decide +kernel
      rw [hnone] at hliteral
      cases hliteral
    · obtain ⟨first, rest, hwords, hlines⟩ := ValueForm.of_folded? hfolded
      have hcut : words "-a bb".toList = ["-a".toList, "bb".toList] := by decide +kernel
      obtain ⟨rfl, rfl⟩ := List.cons.inj (hwords.symm.trans hcut)
      have hfill : ValueForm.fill width.toNat "-a".toList ["bb".toList] = ["'-a bb'".toList] := by
        obtain ⟨chars, hfill, hchars⟩ :=
          List.map_eq_singleton_iff.mp (congrArg ValueForm.lines hlines).symm
        rw [hfill, ← hchars, String.toList_ofList]
      have hjoined := intercalate_fill width.toNat "-a".toList ["bb".toList]
      rw [hfill] at hjoined
      exact absurd hjoined (by decide +kernel)

end Layout

end LayeredConfig.Commented
