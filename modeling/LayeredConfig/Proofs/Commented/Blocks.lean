import LayeredConfig.Proofs.Commented.SingleLines
import LayeredConfig.Proofs.Yaml.Block

/-! # Values in blocks

A text with line breaks is written as a literal block, and one of several words that do not fit a
line as a folded block. A block is read as the text that was written if the text does not start
with spaces behind its line breaks and has one line break at its end at most, or, in a folded
block, if its words stand one space apart. -/

namespace LayeredConfig

open Text Yaml

namespace Commented

variable {text : String} {width : Int} {form : ValueForm} {sign : BlockSign}

/-! ## Words in lines -/

theorem mem_words {word text : List Char} (h : word ∈ words text) :
    word ≠ [] ∧ ∀ c ∈ word, isBlank c = false := by
  fun_induction words text with
  | case1 => simp at h
  | case2 text c rest hdrop ih =>
      rcases List.mem_cons.mp h with rfl | h
      · have hhead := List.head?_dropWhile_not isBlank text
        rw [hdrop] at hhead
        refine ⟨by simp, List.forall_mem_cons.mpr ⟨by simpa using hhead, fun d hd => ?_⟩⟩
        simpa using List.mem_takeWhile_imp hd
      · exact ih h

/-- What a line of words looks like. -/
structure WordLine (line : List Char) : Prop where
  starts : ∃ c ∈ line.head?, isBlank c = false
  blank : ∀ c ∈ line, isBlank c = true → c = ' '

theorem WordLine.of_mem_words {word text : List Char} (h : word ∈ words text) : WordLine word := by
  obtain ⟨hne, hblank⟩ := mem_words h
  obtain ⟨c, rest, rfl⟩ := List.exists_cons_of_ne_nil hne
  refine ⟨⟨c, rfl, hblank c List.mem_cons_self⟩, fun d hd htrue => ?_⟩
  rw [hblank d hd] at htrue
  cases htrue

theorem WordLine.append {line word : List Char} (hline : WordLine line) (hword : WordLine word) :
    WordLine (line ++ ' ' :: word) := by
  obtain ⟨c, hc, hblank⟩ := hline.starts
  refine ⟨⟨c, by simp [Option.mem_def.mp hc], hblank⟩, fun d hd htrue => ?_⟩
  rcases List.mem_append.mp hd with hd | hd
  · exact hline.blank d hd htrue
  · rcases List.mem_cons.mp hd with rfl | hd
    · rfl
    · exact hword.blank d hd htrue

theorem wordLine_fill (width : Nat) {current : List Char} {rest : List (List Char)}
    (hcurrent : WordLine current) (hrest : ∀ word ∈ rest, WordLine word) :
    ∀ line ∈ ValueForm.fill width current rest, WordLine line := by
  induction rest generalizing current with
  | nil => simpa [ValueForm.fill] using hcurrent
  | cons word rest ih =>
      obtain ⟨hword, hrest⟩ := List.forall_mem_cons.mp hrest
      rw [ValueForm.fill]
      split
      · exact ih (hcurrent.append hword) hrest
      · exact List.forall_mem_cons.mpr ⟨hcurrent, ih hword hrest⟩

theorem fill_ne_nil (width : Nat) (current : List Char) (rest : List (List Char)) :
    ValueForm.fill width current rest ≠ [] := by
  induction rest generalizing current with
  | nil => simp [ValueForm.fill]
  | cons word rest ih =>
      rw [ValueForm.fill]
      split
      · exact ih _
      · simp

/-- However the words are put into lines, their order and number stay the same. -/
theorem intercalate_fill (width : Nat) (current : List Char) (rest : List (List Char)) :
    [' '].intercalate (ValueForm.fill width current rest) =
      [' '].intercalate (current :: rest) := by
  induction rest generalizing current with
  | nil => simp [ValueForm.fill]
  | cons word rest ih =>
      rw [ValueForm.fill]
      split
      · rw [ih]
        cases rest <;> simp [List.intercalate_cons_cons]
      · rw [List.intercalate_cons_of_ne_nil (fill_ne_nil width word rest), ih,
          List.intercalate_cons_cons]

/-! ## The lines of a block -/

def BlockSign.isFolded : BlockSign → Bool
  | literal | literalStripped => false
  | folded => true

def BlockSign.chomping : BlockSign → Chomping
  | literal => .clip
  | literalStripped | folded => .strip

theorem BlockSign.toList_toText (sign : BlockSign) :
    sign.toText.toList = blockSign sign.isFolded :: headerOf sign.chomping := by
  cases sign <;> rfl

/-- A text of which a block with the sign loses nothing. -/
def BlockSign.Keeps (text : List Char) : BlockSign → Prop
  | literal | literalStripped =>
      (text.dropWhile (· == '\n')).head? ≠ some ' ' ∧ ¬['\n', '\n'] <:+ text
  | folded => [' '].intercalate (words text) = text

instance (text : List Char) : (sign : BlockSign) → Decidable (sign.Keeps text)
  | .literal | .literalStripped =>
      inferInstanceAs (Decidable ((text.dropWhile (· == '\n')).head? ≠ some ' ' ∧
        ¬['\n', '\n'] <:+ text))
  | .folded => inferInstanceAs (Decidable ([' '].intercalate (words text) = text))

theorem split_eq_map_lines (text : String) :
    split "\n" text = (lines text.toList).map String.ofList := rfl

/-- A literal block has the lines of a text but for the line break at its end. -/
theorem ValueForm.of_literal? (h : ValueForm.literal? text = some form) :
    ∃ front sign, isAllBlank front = false ∧ sign.isFolded = false ∧
      text.toList = front ++ lastBreak sign.chomping ∧
        (sign = .literalStripped → front.getLast? ≠ some '\n') ∧
          form = { lines := (Text.lines front).map String.ofList, sign := some sign } := by
  rw [literal?, Option.ite_none_left_eq_some, Bool.or_eq_true, not_or, Bool.not_eq_true,
    Bool.not_eq_true] at h
  obtain ⟨⟨hbreak, hblank⟩, h⟩ := h
  simp only [split_eq_map_lines] at h
  split at h
  · next hlast =>
    obtain ⟨front, hfront⟩ := List.getLast?_eq_some_iff.mp (beq_iff_eq.mp hlast)
    have hlines : Text.lines text.toList = Text.lines front ++ [[]] := by
      rw [hfront, lines_append, lines_of_not_mem List.not_mem_nil]
    have hdata : isAllBlank front = false := by
      have hfeed : isBlank '\n' = true := by decide
      simpa [isAllBlank, hfront, hfeed] using hblank
    refine ⟨front, .literal, hdata, rfl, hfront, by simp, ?_⟩
    rw [← Option.some.inj h, hlines]
    simp
  · next hlast =>
    refine ⟨text.toList, .literalStripped, hblank, rfl, by simp [BlockSign.chomping, lastBreak],
      fun _ => by simpa using hlast, (Option.some.inj h).symm⟩

/-- A folded block has the words of a text. -/
theorem ValueForm.of_folded? (h : ValueForm.folded? text width = some form) :
    ∃ first rest, words text.toList = first :: rest ∧
      form =
        { lines := (fill width.toNat first rest).map String.ofList, sign := some .folded } := by
  rw [folded?, Option.ite_none_left_eq_some] at h
  obtain ⟨-, h⟩ := h
  split at h
  · next first second rest hwords =>
    rw [Option.ite_none_right_eq_some] at h
    exact ⟨first, second :: rest, hwords, (Option.some.inj h.2).symm⟩
  · cases h

theorem ValueForm.literal?_eq_none_iff :
    ValueForm.literal? text = none ↔ '\n' ∉ text.toList ∨ isAllBlank text.toList = true := by
  simp only [literal?]
  split
  · next h => simpa using h
  · next h =>
    rw [Bool.or_eq_true, not_or] at h
    constructor
    · intro hnone
      split at hnone <;> cases hnone
    · intro hor
      simp_all

/-- The forms with a sign are those of blocks. -/
theorem ValueForm.of_sign (h : ValueForm.ofText text width = form) (hsign : form.sign ≠ none) :
    literal? text = some form ∨
      '\n' ∉ text.toList ∧ hasOuterSpace text.toList = false ∧ folded? text width = some form := by
  rcases getD_or h with hplain | ⟨-, h⟩
  · obtain ⟨rfl, -⟩ := of_plain? hplain
    exact absurd rfl hsign
  rcases getD_or h with hsingle | ⟨-, h⟩
  · rw [singleQuoted?, Option.ite_none_right_eq_some] at hsingle
    exact absurd (congrArg sign (Option.some.inj hsingle.2)).symm hsign
  rcases getD_or h with hblank | ⟨hblank, h⟩
  · rw [blank?, Option.ite_none_right_eq_some] at hblank
    exact absurd (congrArg sign (Option.some.inj hblank.2)).symm hsign
  rcases getD_or h with houter | ⟨houter, h⟩
  · rw [outerSpace?, Option.ite_none_right_eq_some] at houter
    exact absurd (congrArg sign (Option.some.inj houter.2)).symm hsign
  rcases getD_or h with hliteral | ⟨hliteral, h⟩
  · exact .inl hliteral
  cases hfolded : folded? text width with
  | some other =>
      rw [hfolded, Option.getD_some] at h
      subst h
      have hbreak : '\n' ∉ text.toList := by
        rcases literal?_eq_none_iff.mp hliteral with hbreak | hall
        · exact hbreak
        · simp [blank?, hall] at hblank
      have hspace : hasOuterSpace text.toList = false := by
        simpa [outerSpace?, hbreak] using houter
      exact .inr ⟨hbreak, hspace, rfl⟩
  | none =>
      rw [hfolded, Option.getD_none] at h
      refine absurd ?_ hsign
      rw [← h, doubleQuoted]
      split <;> rfl

/-! ## Reading the block -/

/-- What stands behind the first character of a sign, with lines two columns deep below it. -/
def BlockSign.behind (lines : List String) (sign : BlockSign) : List Char :=
  headerOf sign.chomping ++ '\n' :: indented 2 (lines.map String.toList)

theorem not_infix_of_getLast? {text : List Char} (h : text.getLast? ≠ some '\n') :
    ¬['\n', '\n'] <:+ text := by
  rintro ⟨front, rfl⟩
  simp at h

theorem BlockSign.blockBody_literal_iff {front : List Char} (hfolded : sign.isFolded = false)
    (htext : text.toList = front ++ lastBreak sign.chomping)
    (hlast : sign = .literalStripped → front.getLast? ≠ some '\n')
    (hblank : isAllBlank front = false)
    (hchars : ∀ c ∈ text.toList, isBreak c = true → c = '\n') :
    blockBody false 0 sign.chomping none (indented 2 (Text.lines front)) = (text.toList, []) ↔
      (text.toList.dropWhile (· == '\n')).head? ≠ some ' ' ∧ ¬['\n', '\n'] <:+ text.toList := by
  constructor
  · intro hread
    constructor
    · have hhead := head_blockBody false 0 sign.chomping (indented 2 (Text.lines front))
      rwa [hread] at hhead
    · cases sign with
      | literal =>
          have hend := end_blockBody false 0 (indented 2 (Text.lines front))
          rw [BlockSign.chomping] at hread
          rwa [hread] at hend
      | literalStripped =>
          rw [htext, chomping, lastBreak, List.append_nil]
          exact not_infix_of_getLast? (hlast rfl)
      | folded => cases hfolded
  · rintro ⟨hspace, hend⟩
    have hsub : front ⊆ text.toList := by
      rw [htext]
      exact List.subset_append_left _ _
    obtain ⟨c, hfront, hdata⟩ := List.all_eq_false.mp hblank
    have hfeed : c ≠ '\n' := by
      rintro rfl
      exact hdata (by decide)
    have hlastFront : front.getLast? ≠ some '\n' := by
      cases sign with
      | literal =>
          intro heq
          obtain ⟨start, rfl⟩ := List.getLast?_eq_some_iff.mp heq
          exact hend ⟨start, by simp [htext, chomping, lastBreak]⟩
      | literalStripped => exact hlast rfl
      | folded => cases hfolded
    have hspaceFront : (front.dropWhile (· == '\n')).head? ≠ some ' ' := by
      intro heq
      rw [htext, List.dropWhile_append] at hspace
      obtain ⟨rest, hrest⟩ := List.head?_eq_some_iff.mp heq
      simp [hrest] at hspace
    rw [htext]
    exact blockBody_lines sign.chomping (by omega) (by omega) (fun d hd => hchars d (hsub hd))
      ⟨c, hfront, hfeed⟩ hspaceFront hlastFront

/-- The lines of words are read as the words one space apart. -/
theorem blockBody_fill {first : List Char} {rest : List (List Char)} (count : Nat)
    (hwords : words text.toList = first :: rest) :
    blockBody true 0 .strip none (indented 2 (ValueForm.fill count first rest)) =
      ([' '].intercalate (words text.toList), []) := by
  have hword : ∀ word ∈ first :: rest, WordLine word := fun word hmem =>
    .of_mem_words (hwords ▸ hmem)
  have hlines := wordLine_fill count (hword first (by simp))
    fun word hmem => hword word (List.mem_cons_of_mem _ hmem)
  have hinner : ∀ line ∈ ValueForm.fill count first rest, ∀ c ∈ line, isBreak c = false := by
    intro line hline c hc
    by_contra hbreak
    rw [Bool.not_eq_false] at hbreak
    have hgap : isGap c = true := by rw [isGap, hbreak, Bool.or_true]
    have hspace := (hlines line hline).blank c hc (isBlank_of_isGap hgap)
    subst hspace
    cases hbreak
  have hstarts : ∀ line ∈ ValueForm.fill count first rest, StartsWord line := by
    intro line hline
    obtain ⟨c, hc, hblank⟩ := (hlines line hline).starts
    refine ⟨c, hc, ?_, ?_⟩ <;> rintro rfl <;> exact absurd hblank (by decide)
  have hne : ∀ line ∈ ValueForm.fill count first rest, line ≠ [] := by
    rintro line hline rfl
    obtain ⟨c, hc, -⟩ := hstarts [] hline
    simp at hc
  obtain ⟨line, more, hfill⟩ := List.exists_cons_of_ne_nil (fill_ne_nil count first rest)
  have hjoined := intercalate_fill count first rest
  rw [hfill] at hinner hstarts hne hjoined
  rw [hfill, hwords, ← hjoined]
  have hspace : line.head? ≠ some ' ' := by
    obtain ⟨c, hc, hspace, -⟩ := hstarts line List.mem_cons_self
    rw [Option.mem_def.mp hc]
    simpa using hspace
  have hlast : (line :: more).getLast? ≠ some [] := fun hnil =>
    hne [] (List.mem_of_mem_getLast? hnil) rfl
  have hread :
      blockBody true 0 .strip none (indented 2 (List.replicate 0 [] ++ line :: more)) = _ :=
    blockBody_indented .strip (by omega) (by omega) hinner (hne line List.mem_cons_self) hspace
      hlast fun _ => hstarts
  simpa [lineJoint, lastBreak] using hread

/-- The block of a text is read as that text if and only if nothing of it gets lost. -/
theorem ValueForm.blockScalar_eq_iff {lines : List String}
    (hform : ofText text width = { lines, sign := some sign })
    (hchars : ∀ c ∈ text.toList, isBreak c = true → c = '\n') :
    blockScalar sign.isFolded 0 (sign.behind lines) = .ok (text.toList, []) ↔
      sign.Keeps text.toList := by
  rw [BlockSign.behind, blockScalar_indented, Except.ok.injEq]
  rcases of_sign hform (by simp) with hliteral | ⟨-, -, hfolded⟩
  · obtain ⟨front, other, hblank, hother, htext, hlast, heq⟩ := of_literal? hliteral
    obtain ⟨rfl, hsign⟩ := ValueForm.mk.inj heq
    obtain rfl := Option.some.inj hsign
    have hkeeps : sign.Keeps text.toList ↔
        (text.toList.dropWhile (· == '\n')).head? ≠ some ' ' ∧ ¬['\n', '\n'] <:+ text.toList := by
      cases sign with
      | folded => cases hother
      | literal => rfl
      | literalStripped => rfl
    rw [hkeeps, hother, List.map_map, String.toList_comp_ofList, List.map_id]
    exact BlockSign.blockBody_literal_iff hother htext hlast hblank hchars
  · obtain ⟨first, rest, hwords, heq⟩ := of_folded? hfolded
    obtain ⟨rfl, hsign⟩ := ValueForm.mk.inj heq
    obtain rfl := Option.some.inj hsign
    rw [List.map_map, String.toList_comp_ofList, List.map_id, BlockSign.isFolded,
      BlockSign.chomping, blockBody_fill _ hwords, Prod.mk.injEq, BlockSign.Keeps]
    exact and_iff_left rfl

theorem BlockSign.chars_block (lines : List String) (sign : BlockSign) :
    ("k: " ++ sign.toText ++ "\n" ++
      String.join (lines.map fun line => "  " ++ line ++ "\n")).toList =
        "k".toList ++ ':' :: ' ' :: blockSign sign.isFolded :: sign.behind lines := by
  simp [BlockSign.toList_toText, BlockSign.behind, String.toList_join, indented, List.flatMap_map]

/-- Where nothing gets lost, nothing is put into the lines but the text. -/
theorem ValueForm.mem_of_mem_lines {lines : List String}
    (hform : ofText text width = { lines, sign := some sign }) (hkeeps : sign.Keeps text.toList)
    {line : String} (hline : line ∈ lines) : line.toList ⊆ text.toList := by
  intro c hc
  rcases of_sign hform (by simp) with hliteral | ⟨-, -, hfolded⟩
  · obtain ⟨front, other, -, -, htext, -, heq⟩ := of_literal? hliteral
    obtain ⟨rfl, -⟩ := ValueForm.mk.inj heq
    obtain ⟨chars, hchars, rfl⟩ := List.mem_map.mp hline
    rw [String.toList_ofList] at hc
    have hfront : c ∈ front := intercalate_lines_lineFeed front ▸ mem_intercalate hchars hc
    rw [htext]
    exact List.mem_append_left _ hfront
  · obtain ⟨first, rest, hwords, heq⟩ := of_folded? hfolded
    obtain ⟨rfl, hsign⟩ := ValueForm.mk.inj heq
    obtain rfl := Option.some.inj hsign
    obtain ⟨chars, hchars, rfl⟩ := List.mem_map.mp hline
    rw [String.toList_ofList] at hc
    have hjoined := intercalate_fill width.toNat first rest
    rw [← hwords] at hjoined
    rw [← hkeeps, ← hjoined]
    exact mem_intercalate hchars hc

/-- A text of which nothing gets lost is decoded again from its block, and no other one can be. -/
theorem ValueForm.exists_decode_block {lines : List String}
    (hform : ofText text width = { lines, sign := some sign })
    (hchars : ∀ c ∈ text.toList, isReadable c = true ∧ (isBreak c = true → c = '\n')) :
    (blockScalar sign.isFolded 0 (sign.behind lines) = .ok (text.toList, []) ↔
      sign.Keeps text.toList) ∧
    (sign.Keeps text.toList → ∀ info : DocumentInfo,
      ∃ found, Yaml.decode info (Text.toBytes ("k: " ++ sign.toText ++ "\n" ++
          String.join (lines.map fun line => "  " ++ line ++ "\n"))) = .ok found ∧
        found.withoutOrigins = .map [("k", .leaf (some (.text text)) {})] {}) := by
  have hread := blockScalar_eq_iff hform fun c hc => (hchars c hc).2
  refine ⟨hread, fun hkeeps info => ?_⟩
  have hvalue := readsToEnd_block (hread.mpr hkeeps)
  rw [String.ofList_toList] at hvalue
  have hkey : ReadsAsKey "k" := by decide +kernel
  have hlines : ∀ line ∈ lines.map String.toList, ∀ c ∈ line, isReadable c = true := by
    intro chars hline c hc
    obtain ⟨line, hmem, rfl⟩ := List.mem_map.mp hline
    exact (hchars c (mem_of_mem_lines hform hkeeps hmem hc)).1
  have hreadable : ∀ c ∈ ' ' :: blockSign sign.isFolded :: sign.behind lines,
      isReadable c = true := by
    have hindented := isReadable_indented 2 hlines
    intro c hc
    simp only [BlockSign.behind, List.mem_cons, List.mem_append] at hc
    rcases hc with rfl | rfl | hc | rfl | hc
    · decide
    · cases sign <;> decide
    · cases sign <;> simp [headerOf, BlockSign.chomping] at hc <;> subst hc <;> decide
    · decide
    · exact hindented c hc
  exact exists_decode_pair hkey hvalue rfl hreadable (Node.holds_text text)
    (BlockSign.chars_block lines sign) info

/-- A list, the second line of which is indented itself. -/
theorem ValueForm.exists_decode_block_list :
    ofText "hosts:\n - a\n" 80 = { lines := ["hosts:", " - a"], sign := some .literal } ∧
      ∃ found, Yaml.decode ⟨"doc", "."⟩ (Text.toBytes ("k: " ++ BlockSign.literal.toText ++ "\n" ++
          String.join (["hosts:", " - a"].map fun line => "  " ++ line ++ "\n"))) = .ok found ∧
        found.withoutOrigins = .map [("k", .leaf (some (.text "hosts:\n - a\n")) {})] {} := by
  have hform : ofText "hosts:\n - a\n" 80 =
      { lines := ["hosts:", " - a"], sign := some .literal } := by
    decide +kernel
  have hchars : ∀ c ∈ "hosts:\n - a\n".toList,
      isReadable c = true ∧ (isBreak c = true → c = '\n') := by
    simp [isReadable, isBreak]
  have hkeeps : BlockSign.literal.Keeps "hosts:\n - a\n".toList := by decide +kernel
  exact ⟨hform, (exists_decode_block hform hchars).2 hkeeps ⟨"doc", "."⟩⟩

/-- Spaces in front of the first line are taken for its indentation. -/
theorem ValueForm.decode_block_spaced :
    ofText "  a\n" 80 = { lines := ["  a"], sign := some .literal } ∧
      ∃ found, Yaml.decode ⟨"doc", "."⟩ (Text.toBytes ("k: " ++ BlockSign.literal.toText ++ "\n" ++
          String.join (["  a"].map fun line => "  " ++ line ++ "\n"))) = .ok found ∧
        found.withoutOrigins = .map [("k", .leaf (some (.text "a\n")) {})] {} := by
  have hscalar : blockScalar false 0 "\n    a\n".toList = .ok ("a\n".toList, []) := by
    decide +kernel
  have hvalue := readsToEnd_block hscalar
  rw [String.ofList_toList] at hvalue
  have hkey : ReadsAsKey "k" := by decide +kernel
  refine ⟨by decide +kernel, ?_⟩
  have hreadable : ∀ c ∈ ' ' :: '|' :: "\n    a\n".toList, isReadable c = true := by
    simp [isReadable]
  exact exists_decode_pair hkey hvalue rfl hreadable (Node.holds_text "a\n") (by decide +kernel)
    ⟨"doc", "."⟩

end Commented

end LayeredConfig
