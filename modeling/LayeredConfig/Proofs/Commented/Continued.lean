import LayeredConfig.Proofs.Commented.SingleLines
import LayeredConfig.Proofs.Yaml.Block

/-! # Values in continued lines

The lines of a long text in double quotes, one below the other, are read as one scalar. A backslash
at the end of a line makes the reader pass over the line break and over all spaces in front of the
next line, those included that the text has there. -/

namespace LayeredConfig

open Text Yaml

namespace Commented

variable {width : Nat} {first : List Char} {parts : List (List Char)}

/-! ## The layout of continued lines -/

/-- What stands behind the first of several continued lines. -/
def linesBehind (width : Nat) : List (List Char) → List Char
  | [] => ['"', '\n']
  | next :: more => '\\' :: '\n' :: (List.replicate width ' ' ++ (next ++ linesBehind width more))

theorem indented_continued (width : Nat) (line : List Char) (lines : List (List Char)) :
    indented width (continued line lines) =
      List.replicate width ' ' ++ (line ++ linesBehind width lines) := by
  induction lines generalizing line with
  | nil => simp [continued, indented, linesBehind]
  | cons next more ih =>
      rw [continued, indented_cons, ih, linesBehind]
      simp

theorem tail_continued (line other : List Char) (lines : List (List Char)) :
    (continued line lines).tail = (continued other lines).tail := by
  cases lines <;> rfl

/-- Each line ends with a sign, behind which the layout goes on. -/
theorem exists_sign (width : Nat) (line next : List Char) (more : List (List Char)) :
    ∃ sign rest, (sign = '"' ∨ sign = '\\') ∧ linesBehind width more = sign :: rest ∧
      (continued line (next :: more)).tail = (next ++ [sign]) :: (continued next more).tail := by
  cases more with
  | nil => exact ⟨'"', _, .inl rfl, rfl, rfl⟩
  | cons other more => exact ⟨'\\', _, .inr rfl, rfl, rfl⟩

/-! ## Reading continued lines -/

theorem head_jsonEscaped {c : Char} (hc : c ≠ ' ') :
    ∃ d rest, jsonEscaped c = d :: rest ∧ d ≠ ' ' ∧ d ≠ '\t' := by
  have htab : jsonEscaped '\t' ≠ ['\t'] := by decide
  rcases jsonEscaped_cases c with ⟨hplain, -⟩ | ⟨d, hd⟩ | ⟨digits, hdigits, -⟩
  · refine ⟨c, [], hplain, hc, ?_⟩
    rintro rfl
    exact htab hplain
  · exact ⟨'\\', [d], hd, by decide, by decide⟩
  · exact ⟨'\\', _, hdigits, by decide, by decide⟩

/-- White space in front of escapes is that of the text. -/
theorem dropWhile_escapes (text : List Char) {rest : List Char}
    (hrest : ∀ c ∈ rest.head?, c ≠ ' ' ∧ c ≠ '\t') :
    ((escapes text ++ rest).dropWhile fun c => c == ' ' || c == '\t') =
      escapes (text.dropWhile (· == ' ')) ++ rest := by
  induction text with
  | nil =>
      cases rest with
      | nil => rfl
      | cons c rest =>
          obtain ⟨hspace, htab⟩ := hrest c rfl
          simp [escapes, hspace, htab]
  | cons c text ih =>
      by_cases hc : c = ' '
      · subst hc
        have hescaped : jsonEscaped ' ' = [' '] := by decide
        rw [escapes, List.flatMap_cons, ← escapes, hescaped]
        simpa using ih
      · obtain ⟨d, more, hescaped, hspace, htab⟩ := head_jsonEscaped hc
        simp [escapes, hescaped, hspace, htab, hc]

/-- The parts of a text are read one after the other, all but the first without their spaces in
front. -/
theorem quotedScalar_linesBehind
    (hbreak : ∀ part ∈ first :: parts, ∀ c ∈ escapes part, isBreak c = false)
    (hseparator : width = 0 →
      ∀ line ∈ (continued (escapes first) (parts.map escapes)).tail, startsSeparator line = false) :
    quotedScalar true (escapes first ++ linesBehind width (parts.map escapes)) =
      .ok (first ++ (parts.map fun part => part.dropWhile (· == ' ')).flatten, ['\n']) := by
  induction parts generalizing first with
  | nil =>
      have hquotes := Quotes.of_jsonEscaped (hbreak first List.mem_cons_self)
      have hfeed : ['\n'].head? ≠ some '\'' := by simp
      have hread := hquotes.quotedScalar hfeed
      rw [List.map_nil, List.map_nil, List.flatten_nil, List.append_nil]
      exact hread
  | cons next more ih =>
      obtain ⟨sign, rest, hkind, hsign, htail⟩ :=
        exists_sign width (escapes first) (escapes next) (more.map escapes)
      rw [List.map_cons, htail] at hseparator
      have hplain : sign ≠ ' ' ∧ sign ≠ '\t' ∧ sign ≠ '-' ∧ sign ≠ '.' ∧ isBreak sign = false := by
        rcases hkind with rfl | rfl <;> decide
      obtain ⟨hspace, htab, hdash, hdot, hsignBreak⟩ := hplain
      have hdrop : ((escapes next ++ linesBehind width (more.map escapes)).dropWhile
          fun c => c == ' ' || c == '\t') =
            escapes (next.dropWhile (· == ' ')) ++ linesBehind width (more.map escapes) :=
        dropWhile_escapes next (by rw [hsign]; simpa using ⟨hspace, htab⟩)
      have hstarts : startsSeparator (List.replicate width ' ' ++
          (escapes next ++ linesBehind width (more.map escapes))) = false := by
        cases width with
        | zero =>
            rw [List.replicate_zero, List.nil_append, hsign,
              Scanner.startsSeparator_append hdash hdot]
            exact hseparator rfl _ List.mem_cons_self
        | succ width => rfl
      have hshorter : escapes (next.dropWhile (· == ' ')) ⊆ escapes next := by
        intro c hc
        obtain ⟨d, hd, hc⟩ := List.mem_flatMap.mp hc
        exact List.mem_flatMap.mpr ⟨d, (List.dropWhile_sublist _).subset hd, hc⟩
      have hbreakMore : ∀ part ∈ next.dropWhile (· == ' ') :: more,
          ∀ c ∈ escapes part, isBreak c = false := by
        refine List.forall_mem_cons.mpr ⟨fun c hc => ?_, fun part hpart => ?_⟩
        · exact hbreak next (by simp) c (hshorter hc)
        · exact hbreak part (by simp [hpart])
      -- The next line is read from behind its spaces.
      have hmore := ih hbreakMore fun hzero line hline => by
        rw [tail_continued _ (escapes next)] at hline
        exact hseparator hzero line (List.mem_cons_of_mem _ hline)
      have hbehind : takeBreak? ((escapes next ++ linesBehind width (more.map escapes)).dropWhile
          fun c => c == ' ' || c == '\t') = none := by
        have hquotes := Quotes.of_jsonEscaped (hbreak next (by simp))
        refine hquotes.takeBreak?_dropWhile ?_
        rw [hsign, List.dropWhile_cons_of_neg (by simp [hspace, htab]), takeBreak?_cons hsignBreak]
      rw [← hdrop] at hmore
      have hquotes := Quotes.of_jsonEscaped (hbreak first List.mem_cons_self)
      have hread := hquotes.quotedScalar_append rfl
        (quotedScalar_escapedBreak hstarts hbehind hmore)
      simpa [linesBehind, escapes] using hread

/-! ## Spaces in front of a line -/

theorem length_flatten_dropWhile_le (parts : List (List Char)) :
    (parts.map fun part => part.dropWhile (· == ' ')).flatten.length ≤ parts.flatten.length := by
  induction parts with
  | nil => simp
  | cons part parts ih =>
      have hpart := (List.dropWhile_suffix (l := part) (· == ' ')).length_le
      simp only [List.map_cons, List.flatten_cons, List.length_append]
      omega

/-- Nothing gets lost if and only if no part starts with a space. -/
theorem flatten_dropWhile_eq_iff (parts : List (List Char)) :
    (parts.map fun part => part.dropWhile (· == ' ')).flatten = parts.flatten ↔
      ∀ part ∈ parts, part.head? ≠ some ' ' := by
  induction parts with
  | nil => simp
  | cons part parts ih =>
      rw [List.forall_mem_cons, ← ih, List.map_cons, List.flatten_cons, List.flatten_cons]
      constructor
      · intro heq
        have hlengths := congrArg List.length heq
        have hrest := length_flatten_dropWhile_le parts
        have hsuffix := List.dropWhile_suffix (l := part) (· == ' ')
        have hpart := hsuffix.length_le
        rw [List.length_append, List.length_append] at hlengths
        have hsame : part.dropWhile (· == ' ') = part := hsuffix.eq_of_length (by omega)
        rw [hsame] at heq
        refine ⟨fun hhead => ?_, List.append_cancel_left heq⟩
        obtain ⟨rest, rfl⟩ := List.head?_eq_some_iff.mp hhead
        have hshorter := (List.dropWhile_suffix (l := rest) (· == ' ')).length_le
        rw [List.dropWhile_cons_of_pos (by rfl)] at hsame
        rw [hsame, List.length_cons] at hshorter
        omega
      · rintro ⟨hhead, hrest⟩
        have hpart : part.dropWhile (· == ' ') = part := by
          cases part with
          | nil => rfl
          | cons c part => simpa using hhead
        rw [hpart, hrest]

theorem head_continued_iff (line : List Char) (parts : List (List Char)) :
    (∀ other ∈ (continued line (parts.map escapes)).tail, other.head? ≠ some ' ') ↔
      ∀ part ∈ parts, part.head? ≠ some ' ' := by
  induction parts generalizing line with
  | nil => simp [continued]
  | cons next more ih =>
      obtain ⟨sign, -, hsign, -, htail⟩ := exists_sign 0 line (escapes next) (more.map escapes)
      have hhead : (escapes next ++ [sign]).head? ≠ some ' ' ↔ next.head? ≠ some ' ' := by
        cases next with
        | nil => rcases hsign with rfl | rfl <;> simp [escapes]
        | cons c next =>
            by_cases hc : c = ' '
            · subst hc
              have hescaped : jsonEscaped ' ' = [' '] := by decide
              simp [escapes, hescaped]
            · obtain ⟨d, rest, hescaped, hspace, -⟩ := head_jsonEscaped hc
              simp [escapes, hescaped, hspace, hc]
      rw [List.map_cons, htail, List.forall_mem_cons, List.forall_mem_cons, ih, hhead]

/-! ## Texts in continued lines -/

theorem escapes_flatten (parts : List (List Char)) :
    escapes parts.flatten = (parts.map escapes).flatten := by
  induction parts with
  | nil => rfl
  | cons part parts ih =>
      rw [List.flatten_cons, escapes_append, ih, List.map_cons, List.flatten_cons]

theorem mem_continued {line other : List Char} {lines : List (List Char)} {c : Char}
    (hother : other ∈ continued line lines) (hc : c ∈ other) :
    c ∈ line ++ lines.flatten ∨ c = '"' ∨ c = '\\' := by
  induction lines generalizing line with
  | nil =>
      rw [continued, List.mem_singleton] at hother
      subst hother
      rcases List.mem_append.mp hc with hc | hc
      · exact .inl (List.mem_append_left _ hc)
      · exact .inr (.inl (List.mem_singleton.mp hc))
  | cons next more ih =>
      rcases List.mem_cons.mp hother with rfl | hother
      · rcases List.mem_append.mp hc with hc | hc
        · exact .inl (List.mem_append_left _ hc)
        · exact .inr (.inr (List.mem_singleton.mp hc))
      · exact (ih hother).imp_left (List.mem_append_right line)

/-- The lines of a JSON string hold the parts of the text. -/
theorem exists_chunk_jsonQuoted {text : String} {width : Int} {lines : List String}
    (hwidth : 3 ≤ width) (hlines : chunk (jsonQuoted text) width = lines)
    (hwhole : ∀ line ∈ lines.dropLast, ¬EndsInEscape line.toList.dropLast) :
    ∃ (first : List Char) (parts : List (List Char)), text.toList = first ++ parts.flatten ∧
      lines.map String.toList = continued ('"' :: escapes first) (parts.map escapes) := by
  have hquoted : (jsonQuoted text).toList = ['"'] ++ (escapes text.toList ++ ['"']) :=
    String.toList_ofList
  have hinside : inQuotes (jsonQuoted text).toList = (jsonQuoted text).toList := by
    rw [inQuotes, if_pos (by rw [hquoted]; rfl)]
  rw [chunk, hinside, if_neg (by omega), hquoted] at hlines
  subst hlines
  rw [← List.map_dropLast] at hwhole
  have hwidthNat : 3 ≤ width.toNat := by omega
  obtain ⟨first, parts, htext, hcut⟩ := exists_cutLines hwidthNat (.inr rfl) text.toList
    fun line hline => by simpa using hwhole _ (List.mem_map_of_mem hline)
  refine ⟨first, parts, htext, ?_⟩
  rw [List.map_map, String.toList_comp_ofList, List.map_id, hcut]
  rfl

section Characters

variable {first : List Char} {parts : List (List Char)} {P : Char → Prop}

/-- What holds of the characters of a JSON string holds of those of its parts. -/
theorem forall_mem_escapes
    (h : ∀ c ∈ '"' :: (escapes first ++ (parts.map escapes).flatten ++ ['"']), P c) :
    ∀ part ∈ first :: parts, ∀ c ∈ escapes part, P c := by
  intro part hpart c hc
  refine h c ?_
  rcases List.mem_cons.mp hpart with rfl | hpart
  · simp [hc]
  · have hflat : c ∈ (parts.map escapes).flatten :=
      List.mem_flatten.mpr ⟨_, List.mem_map_of_mem hpart, hc⟩
    simp [hflat]

/-- What holds of them and of the two signs at the ends of lines holds of the lines. -/
theorem forall_mem_continued
    (h : ∀ c ∈ '"' :: (escapes first ++ (parts.map escapes).flatten ++ ['"']), P c)
    (hquote : P '"') (hbackslash : P '\\') :
    ∀ line ∈ continued ('"' :: escapes first) (parts.map escapes), ∀ c ∈ line, P c := by
  intro line hline c hc
  rcases mem_continued hline hc with hmem | rfl | rfl
  · refine h c ?_
    rw [← List.cons_append, ← List.cons_append]
    exact List.mem_append_left _ hmem
  · assumption
  · assumption

end Characters

/-- The lines of a JSON string, one below the other, are read as one scalar. It is the text that was
written if and only if no line but the first starts with a space. -/
theorem exists_decode_chunk {text : String} {width : Int} {lines : List String} (hwidth : 3 ≤ width)
    (hlines : chunk (jsonQuoted text) width = lines)
    (hchars : ∀ c ∈ (jsonQuoted text).toList, isReadable c = true ∧ isBreak c = false)
    (hwhole : ∀ line ∈ lines.dropLast, ¬EndsInEscape line.toList.dropLast) (indent : Nat)
    (hseparator : indent = 0 → ∀ line ∈ lines.tail, startsSeparator line.toList = false) :
    ∃ read : String,
      quotedScalar true ((indented indent (lines.map String.toList)).drop (indent + 1)) =
        .ok (read.toList, ['\n']) ∧
      (read = text ↔ ∀ line ∈ lines.tail, line.toList.head? ≠ some ' ') ∧
      (0 < indent → ∀ info : DocumentInfo, ∃ found,
        Yaml.decode info (Text.toBytes ("k: \n" ++
          String.ofList (indented indent (lines.map String.toList)))) = .ok found ∧
        found.withoutOrigins = .map [("k", .leaf (some (.text read)) {})] {}) := by
  obtain ⟨first, parts, htext, hparts⟩ := exists_chunk_jsonQuoted hwidth hlines hwhole
  have hquoted : (jsonQuoted text).toList =
      '"' :: (escapes first ++ (parts.map escapes).flatten ++ ['"']) := by
    rw [← escapes_flatten, ← escapes_append, ← htext]
    exact String.toList_ofList
  rw [hquoted] at hchars
  have hbreak := forall_mem_escapes fun c hc => (hchars c hc).2
  have htails : (continued ('"' :: escapes first) (parts.map escapes)).tail =
      (lines.tail).map String.toList := by
    rw [← hparts, List.map_tail]
  have hread := quotedScalar_linesBehind hbreak fun hzero line hline => by
    rw [tail_continued _ ('"' :: escapes first), htails] at hline
    obtain ⟨other, hother, rfl⟩ := List.mem_map.mp hline
    exact hseparator hzero other hother
  have hlayout : indented indent (lines.map String.toList) = List.replicate indent ' ' ++
      '"' :: (escapes first ++ linesBehind indent (parts.map escapes)) := by
    rw [hparts, indented_continued]
    rfl
  refine ⟨String.ofList (first ++ (parts.map fun part => part.dropWhile (· == ' ')).flatten),
    ?_, ?_, ?_⟩
  · have hdrop : (indented indent (lines.map String.toList)).drop (indent + 1) =
        escapes first ++ linesBehind indent (parts.map escapes) := by
      rw [hlayout, List.drop_append, List.drop_of_length_le (by simp)]
      simp
    rw [hdrop, hread, String.toList_ofList]
  · have hheads := head_continued_iff ('"' :: escapes first) parts
    rw [htails] at hheads
    rw [← String.toList_inj, String.toList_ofList, htext, List.append_cancel_left_eq,
      flatten_dropWhile_eq_iff, ← hheads]
    exact List.forall_mem_map
  · intro hindent info
    have hkey : ReadsAsKey "k" := by decide +kernel
    have hvalue := readsToEnd_below hindent hread
    rw [← hlayout] at hvalue
    have hlineChars := forall_mem_continued (fun c hc => (hchars c hc).1) (by decide) (by decide)
    rw [← hparts] at hlineChars
    have hreadable : ∀ c ∈ ' ' :: '\n' :: indented indent (lines.map String.toList),
        isReadable c = true := by
      refine List.forall_mem_cons.mpr ⟨by decide, List.forall_mem_cons.mpr ⟨by decide, ?_⟩⟩
      exact isReadable_indented indent hlineChars
    exact exists_decode_pair hkey hvalue rfl hreadable (Node.holds_text _) (by simp) info

/-- Three words, one cut behind a space and one within a word. -/
theorem exists_decode_chunk_words :
    chunk (jsonQuoted "one two three") 8 = ["\"one \\", "two thr\\", "ee\""] ∧
      ∃ found, Yaml.decode ⟨"doc", "."⟩ (Text.toBytes ("k: \n" ++ String.ofList
          (indented 2 (["\"one \\", "two thr\\", "ee\""].map String.toList)))) = .ok found ∧
        found.withoutOrigins = .map [("k", .leaf (some (.text "one two three")) {})] {} := by
  have hlines : chunk (jsonQuoted "one two three") 8 =
      ["\"one \\", "two thr\\", "ee\""] := by
    decide +kernel
  have hchars : ∀ c ∈ (jsonQuoted "one two three").toList,
      isReadable c = true ∧ isBreak c = false := by
    have hquoted : (jsonQuoted "one two three").toList = "\"one two three\"".toList := by
      decide +kernel
    rw [hquoted]
    simp [isReadable, isBreak]
  obtain ⟨read, -, hread, hdecode⟩ := exists_decode_chunk (by decide) hlines hchars
    (by decide +kernel) 2 (fun hzero => absurd hzero (by decide))
  obtain rfl : read = "one two three" := hread.mpr (by decide +kernel)
  exact ⟨hlines, hdecode (by decide) ⟨"doc", "."⟩⟩

/-- A cut within a run of spaces, of which the next line then loses what it starts with. -/
theorem decode_chunk_spaced :
    chunk (jsonQuoted "alpha    beta") 9 = ["\"alpha   \\", " beta\""] ∧
      quotedScalar true ((indented 2 (["\"alpha   \\", " beta\""].map String.toList)).drop 3) =
        .ok ("alpha   beta".toList, ['\n']) := by
  constructor <;> decide +kernel

end Commented

end LayeredConfig
