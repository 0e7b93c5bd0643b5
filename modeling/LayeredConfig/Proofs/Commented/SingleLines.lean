import LayeredConfig.Proofs.Commented.Chunks
import LayeredConfig.Proofs.Text.Lines
import LayeredConfig.Proofs.Yaml.Document
import LayeredConfig.Proofs.Yaml.Quoted

/-! # Values on one line

A text that is written on one line behind its key stands there bare or in quotes. In quotes it is
read again, as long as its line is one for the reader too; bare only if it looks like a text. -/

namespace LayeredConfig

open Text Yaml

/-- A text that is taken for a text although nothing marks it as one. -/
structure Yaml.LooksLikeText (text : String) : Prop where
  starts : ({ rest := text.toList } : Scanner).startsPlain = true
  colon : text.toList.getLast? ≠ some ':'
  resolves : resolve text = coreTag "str"

namespace Commented

/-! ## One line in double quotes -/

theorem inQuotes_escaped (text : String) :
    inQuotes (ValueForm.escaped text).toList = (jsonQuoted text).toList := by
  have hquoted : (jsonQuoted text).toList =
      '"' :: (text.toList.flatMap jsonEscaped ++ ['"']) := String.toList_ofList
  rw [ValueForm.escaped]
  split
  · next hsame =>
    have hsame : '"' :: (text.toList.flatMap jsonEscaped ++ ['"']) =
        '"' :: (text.toList ++ ['"']) := by
      rw [← hquoted, beq_iff_eq.mp hsame]
      simp
    have hhead : text.toList.head? ≠ some '"' := by
      intro hhead
      obtain ⟨rest, htext⟩ := List.head?_eq_some_iff.mp hhead
      rw [htext] at hsame
      exact absurd (List.cons.inj (List.cons.inj hsame).2).1 (by decide)
    rw [inQuotes, if_neg (by simpa using hhead), hquoted, hsame]
    rfl
  · rw [inQuotes, hquoted]
    rfl

theorem eq_of_chunk_escaped {text line : String} {width : Int}
    (h : chunk (ValueForm.escaped text) width = [line]) : line = jsonQuoted text := by
  rw [chunk, inQuotes_escaped] at h
  split at h
  · rw [String.ofList_toList] at h
    exact (List.cons.inj h).1.symm
  · obtain ⟨chars, hchars, rfl⟩ := List.map_eq_singleton_iff.mp h
    rw [eq_of_cutLines hchars, String.ofList_toList]

/-! ## Bare texts -/

theorem isBlank_of_isGap {c : Char} (h : isGap c = true) : isBlank c = true := by
  simp only [isGap, isBreak, Bool.or_eq_true, beq_iff_eq] at h
  rcases h with (rfl | rfl) | (((rfl | rfl) | rfl) | rfl) | rfl <;> decide

theorem not_infix_of_hasColonSpace {text : List Char}
    (h : hasSpecial.hasColonSpace text = false) : ¬[':', ' '] <:+: text := by
  rintro ⟨before, after, rfl⟩
  induction before with
  | nil => exact Bool.false_ne_true h.symm
  | cons c before ih =>
      rw [List.cons_append, List.cons_append, hasSpecial.hasColonSpace.eq_def] at h
      split at h
      · cases h
      · next heq => exact ih ((List.cons.inj heq).2 ▸ h)
      · next heq => cases heq

theorem plainText_of_hasSpecial {text : List Char} (hne : text ≠ [])
    (hgaps : ∀ c ∈ text, isGap c = true → c = ' ') (houter : hasOuterSpace text = false)
    (hspecial : hasSpecial text = false) : PlainText text := by
  simp only [hasOuterSpace, hasSpecial, Bool.or_eq_false_iff] at houter hspecial
  obtain ⟨hhead, hlast⟩ := houter
  obtain ⟨⟨hspecial, -⟩, hcolon⟩ := hspecial
  refine ⟨hgaps, hne, ?_, ?_, not_infix_of_hasColonSpace hcolon, ?_⟩
  · intro heq
    rw [heq] at hhead
    exact absurd hhead (by decide)
  · intro heq
    rw [heq] at hlast
    exact absurd hlast (by decide)
  · intro hwithin
    have hhash := List.any_eq_false.mp hspecial '#' (hwithin.subset (by decide))
    exact hhash (by decide)

/-! ## The lines of a text -/

/-- The lines that a text can be written in behind its key. -/
inductive SingleLine (text : String) (width : Int) : String → Prop
  | bare (hne : text.toList ≠ [])
      (houter : '\n' ∉ text.toList → hasOuterSpace text.toList = false)
      (hspecial : hasSpecial text.toList = false)
      (hlooks : ValueForm.plain? text width ≠ none → LooksLikeText text) :
      SingleLine text width text
  | single (hquote : '\'' ∉ text.toList) : SingleLine text width ("'" ++ text ++ "'")
  | blank (hblank : isAllBlank text.toList = true) :
      SingleLine text width ("\"" ++ replaceAll "\n" "\\n" text ++ "\"")
  | json : SingleLine text width (jsonQuoted text)

variable {text line : String} {width : Int}

theorem isLeadingSign_or_isSpecial {c : Char}
    (h : "-?:,[]\x7b\x7d#&*!|>'\"%@\x60".toList.contains c = true) :
    isLeadingSign c = true ∨ isSpecial c = true := by
  simp only [String.reduceToList, List.contains_iff_mem, List.mem_cons, List.not_mem_nil,
    or_false] at h
  rcases h with rfl | rfl | rfl | rfl | rfl | rfl | rfl | rfl | rfl | rfl | rfl | rfl | rfl | rfl |
    rfl | rfl | rfl | rfl | rfl <;> decide

theorem startsPlain_of_not_isLeadingSign {c : Char} {rest : List Char} (hgap : isGap c = false)
    (hspecial : isSpecial c = false) (hsign : isLeadingSign c = false) :
    ({ rest := c :: rest } : Scanner).startsPlain = true := by
  have hnot : "-?:,[]\x7b\x7d#&*!|>'\"%@\x60".toList.contains c = false := by
    refine eq_false_of_ne_true fun hmem => ?_
    rcases isLeadingSign_or_isSpecial hmem with h | h
    · exact Bool.false_ne_true (hsign.symm.trans h)
    · exact Bool.false_ne_true (hspecial.symm.trans h)
  rw [Scanner.startsPlain_eq rfl rfl, hgap, hnot]
  rfl

/-- A text that passes as one without quotes looks like one. -/
theorem of_plain? {form : ValueForm} (h : ValueForm.plain? text width = some form) :
    form = { lines := [text] } ∧ text.toList ≠ [] ∧ hasOuterSpace text.toList = false ∧
      hasSpecial text.toList = false ∧ LooksLikeText text := by
  simp only [ValueForm.plain?, Option.ite_none_right_eq_some, Option.some.injEq, Bool.and_eq_true,
    Bool.not_eq_true', bne_iff_ne, beq_iff_eq] at h
  obtain ⟨⟨⟨⟨⟨⟨⟨⟨⟨⟨hempty, hbreak⟩, hspecial⟩, houter⟩, -⟩, -⟩, hsign⟩, hcolon⟩, hresolve⟩, -⟩,
    rfl⟩ := h
  have hne : text.toList ≠ [] := by simpa using hempty
  refine ⟨rfl, hne, houter, hspecial, ⟨?_, hcolon, hresolve⟩⟩
  obtain ⟨c, rest, htext⟩ := List.exists_cons_of_ne_nil hne
  simp only [htext, List.contains_cons, hasSpecial, hasOuterSpace, List.any_cons, List.head?_cons,
    Option.any_some, Bool.or_eq_false_iff, Bool.and_eq_false_iff, bne_eq_false_iff_eq,
    beq_eq_false_iff_ne] at hbreak hspecial houter hsign
  rw [htext]
  refine startsPlain_of_not_isLeadingSign (eq_false_of_ne_true fun hgap => ?_) hspecial.1.1.1 hsign
  rcases houter.1 with hfeed | hblank
  · exact hbreak.1 hfeed.symm
  · exact Bool.false_ne_true (hblank.symm.trans (isBlank_of_isGap hgap))

theorem getD_or {α : Type} {first second : Option α} {last a : α}
    (h : (first.or second).getD last = a) :
    first = some a ∨ first = none ∧ second.getD last = a := by
  cases first with
  | none => exact .inr ⟨rfl, h⟩
  | some b => exact .inl (congrArg some h)

/-- The form that is left when no other one is admitted. -/
theorem SingleLine.of_doubleQuoted (hplain : ValueForm.plain? text width = none)
    (hblank : ValueForm.blank? text = none) (houter : ValueForm.outerSpace? text width = none)
    (h : ValueForm.doubleQuoted text width = { lines := [line] }) :
    SingleLine text width line := by
  rw [ValueForm.blank?, ite_eq_right_iff] at hblank
  have hne : text.toList ≠ [] := fun hnil => Option.some_ne_none _ (hblank (by rw [hnil]; rfl))
  have houter : '\n' ∉ text.toList → hasOuterSpace text.toList = false := by
    intro hbreak
    simp only [ValueForm.outerSpace?, ite_eq_right_iff, Bool.and_eq_true, Bool.not_eq_true',
      List.contains_eq_mem, decide_eq_false_iff_not] at houter
    exact eq_false_of_ne_true fun hspace => Option.some_ne_none _ (houter ⟨hspace, hbreak⟩)
  rw [ValueForm.doubleQuoted] at h
  split at h
  · rw [eq_of_chunk_escaped (congrArg ValueForm.lines h)]
    exact .json
  · next hwritten =>
    rw [Bool.or_eq_true, not_or, Bool.not_eq_true] at hwritten
    obtain rfl := (List.cons.inj (congrArg ValueForm.lines h)).1
    rw [ValueForm.escaped]
    split
    · exact .bare hne houter hwritten.1 fun hsome => (hsome hplain).elim
    · exact .json

theorem SingleLine.of_ofText (h : ValueForm.ofText text width = { lines := [line] }) :
    SingleLine text width line := by
  rcases getD_or h with hplain | ⟨hplain, h⟩
  · obtain ⟨hform, hne, houter, hspecial, hlooks⟩ := of_plain? hplain
    cases hform
    exact .bare hne (fun _ => houter) hspecial fun _ => hlooks
  rcases getD_or h with hsingle | ⟨-, h⟩
  · simp only [ValueForm.singleQuoted?, Option.ite_none_right_eq_some, Bool.and_eq_true,
      Bool.not_eq_true', List.contains_eq_mem, decide_eq_false_iff_not] at hsingle
    obtain ⟨⟨⟨⟨⟨hquote, -⟩, -⟩, -⟩, -⟩, hform⟩ := hsingle
    cases hform
    exact .single hquote
  rcases getD_or h with hblank | ⟨hblank, h⟩
  · rw [ValueForm.blank?, Option.ite_none_right_eq_some] at hblank
    obtain ⟨hblank, hform⟩ := hblank
    cases hform
    exact .blank hblank
  rcases getD_or h with houter | ⟨houter, h⟩
  · simp only [ValueForm.outerSpace?, Option.ite_none_right_eq_some] at houter
    rw [eq_of_chunk_escaped (congrArg ValueForm.lines (Option.some.inj houter.2))]
    exact .json
  -- Blocks have a sign.
  rcases getD_or h with hliteral | ⟨-, h⟩
  · simp only [ValueForm.literal?, Option.ite_none_left_eq_some] at hliteral
    obtain ⟨-, hform⟩ := hliteral
    split at hform <;>
      exact (Option.some_ne_none _ (congrArg ValueForm.sign (Option.some.inj hform))).elim
  cases hfolded : ValueForm.folded? text width with
  | some form =>
      rw [hfolded, Option.getD_some] at h
      subst h
      rw [ValueForm.folded?, Option.ite_none_left_eq_some] at hfolded
      obtain ⟨-, hform⟩ := hfolded
      split at hform
      · rw [Option.ite_none_right_eq_some] at hform
        exact (Option.some_ne_none _ (congrArg ValueForm.sign (Option.some.inj hform.2))).elim
      · cases hform
  | none =>
      rw [hfolded, Option.getD_none] at h
      exact .of_doubleQuoted hplain hblank houter h

/-! ## Reading the lines -/

theorem reads_of_quotes {double : Bool} {chars : List Char} (h : Quotes double chars text.toList)
    (hline : line.toList = closing double :: (chars ++ [closing double]))
    (hreadable : ∀ c ∈ line.toList, isReadable c = true) :
    (⟨fun _ => line.toList, fun _ => false⟩ : Spelling).Reads text where
  spells := by
    have hspells := Scanner.Spells.of_quotes h
    rwa [String.ofList_toList, ← hline] at hspells
  readable := hreadable
  resolves hplain := absurd hplain Bool.false_ne_true

/-- Line breaks among other white space are the only characters that need an escape there. -/
theorem quotes_of_isBlank {text : List Char} (hblank : ∀ c ∈ text, isBlank c = true)
    (hbreak : ∀ c ∈ text.flatMap fun c => if c = '\n' then ['\\', 'n'] else [c],
      isBreak c = false) :
    Quotes true (text.flatMap fun c => if c = '\n' then ['\\', 'n'] else [c]) text := by
  induction text with
  | nil => exact .nil
  | cons c text ih =>
      rw [List.flatMap_cons] at hbreak ⊢
      obtain ⟨hc, hblank⟩ := List.forall_mem_cons.mp hblank
      obtain ⟨hraw, hbreak⟩ := List.forall_mem_append.mp hbreak
      have hrest := ih hblank hbreak
      split
      · next heq =>
        subst heq
        exact .escape rfl (fun rest => rfl) hrest
      · next hne =>
        rw [if_neg hne] at hraw
        have hquote : c ≠ '"' := by rintro rfl; exact absurd hc (by decide)
        have hbackslash : c ≠ '\\' := by rintro rfl; exact absurd hc (by decide)
        exact .char hquote (fun _ => hbackslash) (hraw c List.mem_cons_self) hrest

/-- A line that is one for the reader, and looks like a text where it is bare, is read again. -/
theorem SingleLine.reads (h : SingleLine text width line)
    (hline : ∀ c ∈ line.toList, isReadable c = true ∧ isBreak c = false)
    (hbare : line = text →
      '\t' ∉ text.toList ∧ (ValueForm.plain? text width = none → LooksLikeText text)) :
    ∃ plain, (⟨fun _ => line.toList, fun _ => plain⟩ : Spelling).Reads text := by
  have hreadable : ∀ c ∈ line.toList, isReadable c = true := fun c hc => (hline c hc).1
  cases h with
  | bare hne houter hspecial hlooks =>
      obtain ⟨htab, hrefused⟩ := hbare rfl
      have hlooks : LooksLikeText text := by
        by_cases hplain : ValueForm.plain? text width = none
        · exact hrefused hplain
        · exact hlooks hplain
      have hgaps : ∀ c ∈ text.toList, isGap c = true → c = ' ' := by
        intro c hc hgap
        by_contra hspace
        have htab : c ≠ '\t' := fun heq => htab (heq ▸ hc)
        rw [isGap, beq_false_of_ne hspace, beq_false_of_ne htab, (hline c hc).2] at hgap
        cases hgap
      have hbreak : '\n' ∉ text.toList := fun hmem => Bool.false_ne_true (hline '\n' hmem).2.symm
      have hplain := plainText_of_hasSpecial hne hgaps (houter hbreak) hspecial
      have hreads := Spelling.reads_bare hplain hlooks.colon hlooks.starts hreadable hlooks.resolves
      exact ⟨true, hreads.spells, hreads.readable, hreads.resolves⟩
  | single hquote =>
      have hchars : ("'" ++ text ++ "'").toList = '\'' :: (text.toList ++ ['\'']) := by simp
      have hbreak : ∀ c ∈ text.toList, isBreak c = false := fun c hc =>
        (hline c (by rw [hchars]; simp [hc])).2
      have hquotes : Quotes false text.toList text.toList :=
        .of_forall hquote (fun heq => absurd heq Bool.false_ne_true) hbreak
      exact ⟨false, reads_of_quotes hquotes hchars hreadable⟩
  | blank hblank =>
      have hchars : ("\"" ++ replaceAll "\n" "\\n" text ++ "\"").toList =
          '"' :: ((text.toList.flatMap fun c => if c = '\n' then ['\\', 'n'] else [c]) ++
            ['"']) := by
        rw [String.toList_append, String.toList_append, toList_replaceAll_lineFeed]
        rfl
      have hquotes := quotes_of_isBlank (List.all_eq_true.mp hblank) fun c hc =>
        (hline c (by rw [hchars]; exact List.mem_cons_of_mem _ (List.mem_append_left _ hc))).2
      exact ⟨false, reads_of_quotes hquotes hchars hreadable⟩
  | json =>
      have hchars : (jsonQuoted text).toList =
          '"' :: (text.toList.flatMap jsonEscaped ++ ['"']) := String.toList_ofList
      have hbreak : ∀ c ∈ text.toList.flatMap jsonEscaped, isBreak c = false := fun c hc =>
        (hline c (by rw [hchars]; exact List.mem_cons_of_mem _ (List.mem_append_left _ hc))).2
      exact ⟨false, reads_of_quotes (.of_jsonEscaped hbreak) hchars hreadable⟩

/-- A text that is written on one line is read again as the value of a key, if no character of its
line is unreadable or ends a line for the reader, and if without quotes it has no tab and looks like
a text where the form without quotes was refused. -/
theorem ValueForm.exists_decode_single
    (hform : ValueForm.ofText text width = { lines := [line] })
    (hline : ∀ c ∈ line.toList, isReadable c = true ∧ isBreak c = false)
    (hbare : line = text →
      '\t' ∉ text.toList ∧ (ValueForm.plain? text width = none → LooksLikeText text))
    (info : DocumentInfo) :
    ∃ found, Yaml.decode info (Text.toBytes ("k: " ++ line)) = .ok found ∧
      found.withoutOrigins = .map [("k", .leaf (some (.text text)) {})] {} := by
  obtain ⟨plain, hreads⟩ := (SingleLine.of_ofText hform).reads hline hbare
  have hkey : ReadsAsKey "k" := by decide +kernel
  have hnested : (Tree.map [("k", .leaf (some (.text text)) {})] {}).Nested ReadsAsKey
      (⟨fun _ => line.toList, fun _ => plain⟩ : Spelling).Reads :=
    .map (List.cons_ne_nil _ _) (List.nodup_singleton _) (List.forall_mem_singleton.mpr hkey)
      (List.forall_mem_singleton.mpr (.leaf hreads))
  refine exists_decode hnested info (.inl (?_ : _ = Line.body _ 0 _))
  rw [String.toList_append]
  simp [linesOf, entryLines, leafText?, Line.body, Line.chars, Line.below]

/-- A truth value in quotes, within a width that leaves room for them. -/
theorem ValueForm.exists_decode_single_yes :
    ValueForm.ofText "yes" 80 = { lines := ["'yes'"] } ∧
      ∃ found, Yaml.decode ⟨"doc", "."⟩ (Text.toBytes ("k: " ++ "'yes'")) = .ok found ∧
        found.withoutOrigins = .map [("k", .leaf (some (.text "yes")) {})] {} := by
  have hform : ValueForm.ofText "yes" 80 = { lines := ["'yes'"] } := by decide +kernel
  have hline : ∀ c ∈ "'yes'".toList, isReadable c = true ∧ isBreak c = false := by
    simp [isReadable, isBreak]
  have hquoted : "'yes'" ≠ "yes" := by decide
  exact ⟨hform, ValueForm.exists_decode_single hform hline (fun heq => absurd heq hquoted)
    ⟨"doc", "."⟩⟩

/-- A tab within a text is written without quotes, where no reader admits it. -/
theorem ValueForm.decode_bare_tab :
    ValueForm.ofText "a\tb" 80 = { lines := ["a\tb"] } ∧
      ∃ fault, Yaml.decode ⟨"doc", "."⟩ (Text.toBytes ("k: " ++ "a\tb")) = .error fault := by
  have hnone : (Yaml.decode ⟨"doc", "."⟩ (Text.toBytes ("k: " ++ "a\tb"))).toOption.isNone =
      true := by
    rw [Yaml.decode, Decoder.textOf, Text.ofBytes?_toBytes]
    decide +kernel
  refine ⟨by decide +kernel, ?_⟩
  cases hread : Yaml.decode ⟨"doc", "."⟩ (Text.toBytes ("k: " ++ "a\tb")) with
  | error fault => exact ⟨fault, rfl⟩
  | ok found => rw [hread] at hnone; cases hnone

end Commented

end LayeredConfig
