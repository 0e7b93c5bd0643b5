import LayeredConfig.Codec.Formats
import LayeredConfig.Proofs.Text.Utf8
import LayeredConfig.Proofs.Yaml.Compose
import LayeredConfig.Proofs.Yaml.Scan

/-! # Documents of nested mappings

A tree of maps down to texts is written as one line for each key, two columns deeper for each map.
The scanner finds the tokens of the tree in these lines, so the document is decoded to the tree. -/

namespace LayeredConfig.Yaml

/-- How texts are written as values: in which characters, and whether as plain scalars. -/
structure Spelling where
  chars : String → List Char
  plain : String → Bool

/-- A key that is read as it is written. -/
@[mk_iff]
structure ReadsAsKey (key : String) : Prop where
  text : KeyText key.toList
  readable : ∀ c ∈ key.toList, isReadable c = true
  secret : splitSecret key = (key, false)
  merge : resolve key ≠ coreTag "merge"

instance : DecidablePred ReadsAsKey := fun key =>
  have : Decidable (∀ c ∈ key.toList, isReadable c = true) := List.decidableBAll _ key.toList
  decidable_of_iff' _ (readsAsKey_iff key)

/-- A text that is read as the value of a key as it is spelled. -/
structure Spelling.Reads (spelling : Spelling) (text : String) : Prop where
  spells : Scanner.Spells (spelling.chars text) (spelling.plain text) text
  readable : ∀ c ∈ spelling.chars text, isReadable c = true
  resolves : spelling.plain text = true → resolve text = coreTag "str"

/-- Texts that are written as they are. -/
def Spelling.bare : Spelling := ⟨String.toList, fun _ => true⟩

theorem Spelling.reads_bare {text : String} (h : PlainText text.toList)
    (hcolon : text.toList.getLast? ≠ some ':')
    (hstarts : ({ rest := text.toList } : Scanner).startsPlain = true)
    (hreadable : ∀ c ∈ text.toList, isReadable c = true)
    (hresolve : resolve text = coreTag "str") : bare.Reads text where
  spells := by
    have hspells := Scanner.Spells.of_plain h hcolon hstarts
    rwa [String.ofList_toList] at hspells
  readable := hreadable
  resolves _ := hresolve

/-! ## Lines -/

/-- A key in a column, and the text of its value unless the lines below hold it. -/
structure Line where
  column : Nat
  key : String
  value : Option String

namespace Line

/-- A line from its key on. -/
def chars (spelling : Spelling) (line : Line) : List Char :=
  line.key.toList ++ ':' :: line.value.elim [] fun text => ' ' :: spelling.chars text

/-- The column in which lines start. -/
def columnOf (lines : List Line) : Nat := lines.head?.elim 0 (·.column)

/-- Lines, each behind a line break, and line breaks behind them. -/
def below (spelling : Spelling) (count : Nat) : List Line → List Char
  | [] => List.replicate count '\n'
  | line :: rest =>
    '\n' :: (List.replicate line.column ' ' ++ (line.chars spelling ++ below spelling count rest))

/-- Lines from the first key on. -/
def body (spelling : Spelling) (count : Nat) : List Line → List Char
  | [] => []
  | line :: rest => line.chars spelling ++ below spelling count rest

/-- A line that is read as it is written. -/
structure Reads (spelling : Spelling) (line : Line) : Prop where
  key : ReadsAsKey line.key
  value : ∀ text ∈ line.value, spelling.Reads text

/-- Nothing behind a line with a value is indented deeper. -/
def Precedes (line next : Line) : Prop := line.value.isSome → next.column ≤ line.column

end Line

/-- The text of a leaf. -/
def leafText? : Tree → Option String
  | .leaf (some (.text text)) _ => some text
  | _ => none

mutual

/-- The lines of the entries of a map. -/
def linesOf (column : Nat) : Tree → List Line
  | .map entries _ => entryLines column entries
  | _ => []

def entryLines (column : Nat) : List (String × Tree) → List Line
  | [] => []
  | (key, child) :: rest =>
    ⟨column, key, leafText? child⟩ :: (linesOf (column + 2) child ++ entryLines column rest)

end

/-! ## Tokens of lines -/

namespace Blocks

/-- The value of a key, if it is in the same line. -/
def valued (plain : String → Bool) (value : Option String) (blocks : Blocks) : Blocks :=
  value.elim blocks fun text => blocks.write [.scalar (plain text) text]

def line (plain : String → Bool) (blocks : Blocks) (line : Line) : Blocks :=
  (blocks.key line.column line.key).valued plain line.value

theorem enter_of_indent {column : Nat} {blocks : Blocks} (h : blocks.indent = column) :
    blocks.enter column = blocks := by
  rw [enter, h, if_neg (lt_irrefl _)]

/-- The lines of a tree add its tokens, as soon as what they opened is closed. -/
def Adds (plain : String → Bool) (tree : Tree) : Prop :=
  ∀ (column : Nat) (limit : Int) (found : Blocks), found.indent ≤ limit → limit < column →
    ((linesOf column tree).foldl (line plain) (found.valued plain (leafText? tree))).close limit =
      found.write (tokensOf plain tree)

theorem close_foldl_entryLines {plain : String → Bool} {entries : List (String × Tree)}
    (h : ∀ entry ∈ entries, Adds plain entry.2) {column : Nat} {found before : Blocks}
    (hbefore : before.close column = found) (hindent : found.indent = column) :
    ((entryLines column entries).foldl (line plain) before).close column =
      found.write (entryTokens plain entries) := by
  induction entries generalizing found before with
  | nil => simpa [entryLines, entryTokens, write] using hbefore
  | cons entry rest ih =>
      obtain ⟨key, child⟩ := entry
      let keyed := found.write [.key, .scalar true key, .value]
      have hkey : before.key column key = keyed := by
        rw [Blocks.key, hbefore, enter_of_indent hindent]
      have hchild := h _ List.mem_cons_self (column + 2) column keyed hindent.le
        (by push_cast; omega)
      have hrest := ih (fun entry hentry => h entry (List.mem_cons_of_mem _ hentry)) hchild hindent
      rw [entryLines, List.foldl_cons, List.foldl_append, line, hkey, hrest, write_write,
        write_write]
      rfl

theorem adds {keys texts : String → Prop} (plain : String → Bool) {tree : Tree}
    (h : tree.Nested keys texts) : Adds plain tree := by
  induction h with
  | leaf => exact fun column limit found hindent _ => close_eq_self hindent
  | @map entries hne _ _ _ ih =>
      intro column limit found hindent hlimit
      let opened : Blocks := ⟨column :: found.indents, found.tokens ++ [.blockMappingStart]⟩
      have henter : found.enter column = opened := if_pos (hindent.trans_lt hlimit)
      have hopened : opened.close column = opened := close_eq_self le_rfl
      -- The first key opens the mapping.
      have hfirst : (entryLines column entries).foldl (line plain) found =
          (entryLines column entries).foldl (line plain) opened := by
        obtain ⟨⟨key, child⟩, rest, rfl⟩ := List.exists_cons_of_ne_nil hne
        have hkey : found.key column key = opened.key column key := by
          rw [Blocks.key, Blocks.key, close_eq_self (hindent.trans hlimit.le), henter, hopened,
            enter_of_indent rfl]
        rw [entryLines, List.foldl_cons, List.foldl_cons, line, line, hkey]
      calc ((entryLines column entries).foldl (line plain) found).close limit
        _ = (((entryLines column entries).foldl (line plain) opened).close column).close limit := by
            rw [hfirst, close_close hlimit.le]
        _ = (opened.write (entryTokens plain entries)).close limit := by
            rw [close_foldl_entryLines ih hopened rfl]
        _ = found.write ([.blockMappingStart] ++ entryTokens plain entries ++ [.blockEnd]) := by
            have hclosed (tokens : List Token) :
                close limit ⟨found.indents, tokens⟩ = ⟨found.indents, tokens⟩ :=
              close_eq_self hindent
            rw [write, close_cons_of_lt _ _ hlimit, hclosed, write, List.append_assoc,
              List.append_assoc, List.append_assoc]

end Blocks

/-! ## From lines to tokens -/

namespace Line

variable {spelling : Spelling} {lines : List Line}

theorem turns (h : ∀ line ∈ lines, line.Reads spelling) (count : Nat) :
    Turns (below spelling count lines) (columnOf lines) (body spelling count lines) := by
  cases lines with
  | nil => exact .done count
  | cons line rest =>
      have hkey := (h line List.mem_cons_self).key.text
      obtain ⟨c, more, hchars, hgap, hcomment⟩ := Scanner.head_key hkey
      have hbody : body spelling count (line :: rest) =
          c :: (more ++ ':' :: (line.value.elim [] (fun text => ' ' :: spelling.chars text) ++
            below spelling count rest)) := by
        rw [body, chars, hchars]
        simp
      have hseparator : startsSeparator (List.replicate line.column ' ' ++
          body spelling count (line :: rest)) = false := by
        cases line.column with
        | zero =>
            rw [body, chars, List.append_assoc]
            exact (Scanner.startsSeparator_colon _ _).trans hkey.separator
        | succ column => rfl
      have hbelow : below spelling count (line :: rest) =
          '\n' :: (List.replicate line.column ' ' ++ body spelling count (line :: rest)) := rfl
      rw [hbelow, hbody]
      rw [hbody] at hseparator
      exact .line line.column hgap hcomment hseparator

/-- Lines are scanned one after the other. -/
theorem exists_run {s : Scanner} {found : Blocks} {count : Nat}
    (hmeets : s.Meets (columnOf lines) (body spelling count lines) found)
    (h : ∀ line ∈ lines, line.Reads spelling) (hchain : lines.IsChain Precedes) :
    ∃ last, Scanner.run s = .ok last ∧ last.blocks.tokens =
      ((lines.foldl (Blocks.line spelling.plain) found).close (-1)).tokens ++ [.streamEnd] := by
  induction lines generalizing s found with
  | nil => exact hmeets.finish
  | cons line rest ih =>
      obtain ⟨column, key, value⟩ := line
      obtain ⟨hprecedes, hchainRest⟩ := List.isChain_cons.mp hchain
      have hrest : ∀ line ∈ rest, line.Reads spelling :=
        fun line hline => h line (List.mem_cons_of_mem _ hline)
      have hturns := turns hrest count
      obtain ⟨hkey, hvalue⟩ := h _ List.mem_cons_self
      rw [body, chars, List.append_assoc, List.cons_append] at hmeets
      cases value with
      | none =>
          obtain ⟨next, hrun, hbehind⟩ := hmeets.key hkey.text hturns.startsGap
          rw [String.ofList_toList] at hbehind
          have hnext := hbehind.toStands.meets hbehind.index hturns
          rw [hrun]
          exact ih hnext hrest hchainRest
      | some text =>
          obtain ⟨behind, hrun, hbehind⟩ := hmeets.key hkey.text rfl
          rw [String.ofList_toList] at hbehind
          have hcolumn : (columnOf rest : Int) ≤ (found.key column key).indent := by
            rw [Blocks.indent_key]
            cases rest with
            | nil => exact Int.natCast_nonneg column
            | cons next rest => exact Int.ofNat_le.mpr (hprecedes next rfl rfl)
          obtain ⟨next, hnextRun, hnext⟩ :=
            hbehind.value (hvalue text rfl).spells hturns hcolumn
          rw [hrun, hnextRun]
          exact ih hnext hrest hchainRest

end Line

/-! ## Lines of a tree -/

theorem entryLines_eq (column : Nat) (entries : List (String × Tree)) :
    entryLines column entries = entries.flatMap fun entry =>
      ⟨column, entry.1, leafText? entry.2⟩ :: linesOf (column + 2) entry.2 := by
  induction entries with
  | nil => rfl
  | cons entry rest ih => rw [entryLines, ih, List.flatMap_cons]; rfl

theorem column_of_mem_head? {column : Nat} {entries : List (String × Tree)} {line : Line}
    (h : line ∈ (entryLines column entries).head?) : line.column = column := by
  cases entries with
  | nil => cases h
  | cons entry rest => cases h; rfl

section Nested

variable {keys texts : String → Prop} {spelling : Spelling} {tree : Tree} {line : Line}

/-- A map starts with a key in its column. -/
theorem exists_linesOf {entries : List (String × Tree)}
    (h : (Tree.map entries {}).Nested keys texts) (column : Nat) :
    ∃ line rest, linesOf column (.map entries {}) = line :: rest ∧ line.column = column ∧
      keys line.key := by
  cases h with
  | map hne hnodup hkeys h =>
      obtain ⟨⟨key, child⟩, rest, rfl⟩ := List.exists_cons_of_ne_nil hne
      exact ⟨_, _, rfl, rfl, hkeys key List.mem_cons_self⟩

theorem le_column_of_mem (h : tree.Nested keys texts) {column : Nat}
    (hline : line ∈ linesOf column tree) : column ≤ line.column := by
  induction h generalizing column with
  | leaf => cases hline
  | map hne hnodup hkeys h ih =>
      rw [linesOf, entryLines_eq] at hline
      obtain ⟨entry, hentry, hline⟩ := List.mem_flatMap.mp hline
      rcases List.mem_cons.mp hline with rfl | hline
      · exact le_rfl
      · exact (Nat.le_add_right column 2).trans (ih entry hentry hline)

theorem isChain_linesOf (h : tree.Nested keys texts) (column : Nat) :
    (linesOf column tree).IsChain Line.Precedes := by
  induction h generalizing column with
  | leaf => exact .nil
  | @map entries hne hnodup hkeys h ih =>
      clear hne hnodup hkeys
      rw [linesOf]
      induction entries with
      | nil => exact .nil
      | cons entry rest ihRest =>
          obtain ⟨key, child⟩ := entry
          have hchild := h _ List.mem_cons_self
          rw [entryLines, List.isChain_cons, List.isChain_append]
          refine ⟨fun next hnext hvalue => ?_, ih _ List.mem_cons_self (column + 2),
            ihRest (fun entry hentry => h entry (List.mem_cons_of_mem _ hentry))
              fun entry hentry => ih entry (List.mem_cons_of_mem _ hentry), ?_⟩
          · cases hchild with
            | leaf => exact (column_of_mem_head? hnext).le
            | map => cases hvalue
          · intro last hlast next hnext _
            have hdeep := le_column_of_mem hchild (List.mem_of_mem_getLast? hlast)
            exact (column_of_mem_head? hnext).le.trans ((Nat.le_add_right _ 2).trans hdeep)

theorem reads_of_mem (h : tree.Nested ReadsAsKey spelling.Reads) {column : Nat}
    (hline : line ∈ linesOf column tree) : line.Reads spelling := by
  induction h generalizing column with
  | leaf => cases hline
  | map hne hnodup hkeys h ih =>
      rw [linesOf, entryLines_eq] at hline
      obtain ⟨entry, hentry, hline⟩ := List.mem_flatMap.mp hline
      rcases List.mem_cons.mp hline with rfl | hline
      · refine ⟨hkeys entry.1 (List.mem_map_of_mem hentry), fun text htext => ?_⟩
        have hchild := h entry hentry
        generalize entry.2 = child at hchild htext
        cases hchild with
        | leaf h => cases htext; exact h
        | map => cases htext
      · exact ih entry hentry hline

end Nested

/-! ## Reading documents -/

theorem isReadable_below {spelling : Spelling} {lines : List Line} (count : Nat)
    (h : ∀ line ∈ lines, line.Reads spelling) :
    ∀ c ∈ Line.below spelling count lines, isReadable c = true := by
  induction lines with
  | nil => exact fun c hc => List.eq_of_mem_replicate hc ▸ rfl
  | cons line rest ih =>
      have hrest := ih fun line hline => h line (List.mem_cons_of_mem _ hline)
      obtain ⟨hkey, hvalue⟩ := h line List.mem_cons_self
      have hspaces : ∀ c ∈ List.replicate line.column ' ', isReadable c = true :=
        fun c hc => List.eq_of_mem_replicate hc ▸ rfl
      have hend : ∀ c ∈ line.value.elim [] fun text => ' ' :: spelling.chars text,
          isReadable c = true := by
        cases hline : line.value with
        | none => exact nofun
        | some text => exact List.forall_mem_cons.mpr ⟨rfl, (hvalue text hline).readable⟩
      have hchars : ∀ c ∈ line.chars spelling, isReadable c = true :=
        List.forall_mem_append.mpr ⟨hkey.readable, List.forall_mem_cons.mpr ⟨rfl, hend⟩⟩
      exact List.forall_mem_cons.mpr ⟨rfl, List.forall_mem_append.mpr
        ⟨hspaces, List.forall_mem_append.mpr ⟨hchars, hrest⟩⟩⟩

/-- A scanner at the beginning of a text. -/
theorem meets_start {text : List Char} {c : Char} {rest : List Char} (htext : text = c :: rest)
    (hgap : isGap c = false) (hcomment : c ≠ '#') (hmark : c ≠ '\uFEFF') :
    ({ rest := text } : Scanner).Meets 0 text ⟨[], []⟩ := by
  have hskip := Scanner.skip_of_not_blank (s := { rest := text }) htext (.inr hmark) hgap hcomment
  refine ⟨hskip.symm ▸ ⟨rfl, rfl, rfl, rfl⟩, fun _ => ?_⟩
  rw [hskip]
  exact ⟨rfl, rfl⟩

/-- Lines are scanned as a document, with the sign of its start or without it. -/
theorem Line.exists_run_document {spelling : Spelling} {line : Line} {rest : List Line}
    (h : ∀ other ∈ line :: rest, other.Reads spelling) (hchain : (line :: rest).IsChain Precedes)
    (hcolumn : line.column = 0) {count : Nat} {text : List Char}
    (htext : text = body spelling count (line :: rest) ∨
      text = '-' :: '-' :: '-' :: below spelling count (line :: rest)) :
    ∃ signs last, (signs = [] ∨ signs = [.documentStart]) ∧
      Scanner.run { rest := text } = .ok last ∧ last.blocks.tokens =
        (((line :: rest).foldl (Blocks.line spelling.plain) ⟨[], signs⟩).close (-1)).tokens ++
          [.streamEnd] := by
  rcases htext with rfl | rfl
  · have hkey := (h line List.mem_cons_self).key.text
    obtain ⟨c, more, hchars, hgap, hcomment⟩ := Scanner.head_key hkey
    have hmark : c ≠ '\uFEFF' := (isInline_iff.mp (hkey.inline c (by simp [hchars]))).2.2
    have hbody : body spelling count (line :: rest) = c :: (more ++
        (':' :: line.value.elim [] fun text => ' ' :: spelling.chars text) ++
          below spelling count rest) := by
      rw [body, chars, hchars]
      simp
    have hmeets := meets_start hbody hgap hcomment hmark
    rw [← hcolumn] at hmeets
    obtain ⟨last, hrun, htokens⟩ := exists_run hmeets h hchain
    rw [hcolumn] at hrun
    exact ⟨[], last, .inl rfl, hrun, htokens⟩
  · obtain ⟨next, hstart, hnext⟩ := Scanner.run_documentStart
      (List.replicate line.column ' ' ++ (line.chars spelling ++ below spelling count rest))
    have hmeets := hnext.toStands.meets hnext.index (turns h count)
    obtain ⟨last, hrun, htokens⟩ := exists_run hmeets h hchain
    exact ⟨[.documentStart], last, .inr rfl, hstart.trans hrun, htokens⟩

/-- A text with the tokens of a mapping is decoded to the map that they are composed to. -/
theorem exists_decode_of_run {entries : List (String × Tree)} {signs body : List Token}
    (hcomposes : Node.Composes (.blockMappingStart :: body) (.map entries {}))
    (hsigns : signs = [] ∨ signs = [.documentStart]) {text : String} {last : Scanner}
    (hrun : Scanner.run { rest := text.toList } = .ok last)
    (htokens : last.blocks.tokens = signs ++ (.blockMappingStart :: body ++ [.streamEnd]))
    (hreadable : ∀ c ∈ text.toList, isReadable c = true)
    (hblank : Text.isAllBlank text.toList = false) (info : DocumentInfo) :
    ∃ found, decode info (Text.toBytes text) = .ok found ∧
      found.withoutOrigins = .map entries {} := by
  obtain ⟨node, hnode, hholds⟩ := Node.exists_ofTokens hcomposes hsigns htokens
  obtain ⟨found, hfound, horigins⟩ := hholds info.name
  refine ⟨found, ?_, horigins⟩
  have hread : read info.name text = .ok found := by
    rw [read, hblank, if_neg Bool.false_ne_true, node?, if_pos (List.all_eq_true.mpr hreadable),
      scan, hrun]
    simp only [Except.map, bind, Except.bind, hnode, hfound]
  have hmap : Decoder.requireMap info found = .ok found := by
    cases found with
    | map =>
        rw [Decoder.requireMap]
        split <;> rfl
    | leaf => cases horigins
    | array => cases horigins
  rw [decode, Decoder.textOf, Text.ofBytes?_toBytes]
  simp only [bind, Except.bind, hread, hmap]

variable {spelling : Spelling} {entries : List (String × Tree)}

/-- A document of nested mappings is decoded to the tree whose lines it has. -/
theorem exists_decode (h : (Tree.map entries {}).Nested ReadsAsKey spelling.Reads)
    (info : DocumentInfo) {count : Nat} {text : String}
    (htext : text.toList = Line.body spelling count (linesOf 0 (.map entries {})) ∨
      text.toList =
        '-' :: '-' :: '-' :: Line.below spelling count (linesOf 0 (.map entries {}))) :
    ∃ found, decode info (Text.toBytes text) = .ok found ∧
      found.withoutOrigins = .map entries {} := by
  obtain ⟨line, rest, hlines, hcolumn, -⟩ := exists_linesOf h 0
  have hreads : ∀ other ∈ line :: rest, other.Reads spelling :=
    fun other hother => reads_of_mem h (hlines ▸ hother)
  have hadds (signs : List Token) : (((linesOf 0 (.map entries {})).foldl
      (Blocks.line spelling.plain) ⟨[], signs⟩).close (-1)).tokens =
        signs ++ tokensOf spelling.plain (.map entries {}) :=
    congrArg Blocks.tokens (Blocks.adds spelling.plain h 0 (-1) ⟨[], signs⟩ le_rfl (by decide))
  have hchain := isChain_linesOf h 0
  rw [hlines] at htext hchain hadds
  obtain ⟨signs, last, hsigns, hrun, htokens⟩ :=
    Line.exists_run_document hreads hchain hcolumn htext
  rw [hadds, List.append_assoc] at htokens
  have hcomposes : Node.Composes (tokensOf spelling.plain (.map entries {})) (.map entries {}) :=
    Node.composes h (fun key hkey => ⟨hkey.secret, hkey.merge⟩)
      fun text htext => htext.resolves
  have hcolon : ':' ∈ Line.body spelling count (line :: rest) :=
    List.mem_append_left _ (List.mem_append_right _ List.mem_cons_self)
  have hbelow := isReadable_below count hreads
  have hinner : Line.body spelling count (line :: rest) ⊆
      Line.below spelling count (line :: rest) :=
    fun c hc => List.mem_cons_of_mem _ (List.mem_append_right _ hc)
  have hblank : Text.isAllBlank text.toList = false := by
    refine List.all_eq_false.mpr ⟨':', ?_, by decide⟩
    rcases htext with htext | htext <;> rw [htext]
    · exact hcolon
    · simp [hinner hcolon]
  have hreadable : ∀ c ∈ text.toList, isReadable c = true := by
    intro c hc
    rcases htext with htext | htext <;> rw [htext] at hc
    · exact hbelow c (hinner hc)
    · simp only [List.mem_cons] at hc
      rcases hc with rfl | rfl | rfl | hc
      iterate 3 rfl
      exact hbelow c hc
  exact exists_decode_of_run hcomposes hsigns hrun htokens hreadable hblank info

end LayeredConfig.Yaml
