import LayeredConfig.Proofs.Yaml.Steps

/-! # Keys and values in blocks

The scanner reads block mappings line by line. A key closes the collections that are indented
deeper, opens a mapping unless one is open in its column, and leaves the scanner in front of its
value; a value leaves it in front of the next line. -/

namespace LayeredConfig.Yaml

/-- A text that can stand in front of a colon as a key. -/
@[mk_iff]
structure KeyText (text : List Char) : Prop extends PlainText text where
  inline : ∀ c ∈ text, isInline c = true
  starts : ({ rest := text ++ [':'] } : Scanner).startsPlain = true
  separator : startsSeparator (text ++ [':']) = false
  length_le : text.length ≤ 1024

instance : DecidablePred KeyText := fun text =>
  have : Decidable (∀ c ∈ text, isInline c = true) := List.decidableBAll _ text
  decidable_of_iff' _ (keyText_iff text)

namespace Scanner

/-! ## Places in a block -/

/-- A scanner in a block, at the first character of a text. -/
structure Stands (s : Scanner) (text : List Char) (found : Blocks) : Prop where
  rest : s.rest = text
  flow : s.flow = []
  candidate : s.candidate = none
  blocks : s.blocks = found

/-- A scanner from which only white space leads to a text, in a column where a key may start. -/
structure Meets (s : Scanner) (column : Nat) (text : List Char) (found : Blocks) : Prop where
  stands : s.skip.Stands text found
  place : text ≠ [] → s.skip.position.column = column ∧ s.skip.keyAllowed = true

/-- A scanner behind the sign of a key or of a document, in the same line. -/
structure Behind (s : Scanner) (text : List Char) (found : Blocks) : Prop extends
    s.Stands text found where
  keyAllowed : s.keyAllowed = false
  column : found.indent < s.position.column
  started : 0 < s.position.column
  index : 0 < s.position.index

/-! ## Keys -/

section Keys

variable {s next : Scanner} {column : Nat} {found : Blocks}

theorem length_skip_le (s : Scanner) : s.skip.rest.length ≤ s.rest.length := by
  rw [skip]
  dsimp only
  split
  · exact (length_skipBlank_le _).trans (List.drop_sublist _ _).length_le
  · exact length_skipBlank_le _

theorem startsPlain_key {key rest : List Char} (h : KeyText key)
    (hrest : s.rest = key ++ ':' :: rest) (hflow : s.flow = []) : s.startsPlain = true := by
  obtain ⟨c, more, rfl⟩ := List.exists_cons_of_ne_nil h.ne_nil
  have hstarts := h.starts
  have hhead : startsGap (more ++ [':']) = startsGap (more ++ ':' :: rest) := by
    cases more <;> rfl
  rw [startsPlain_eq rfl rfl] at hstarts
  rw [startsPlain_eq hrest hflow]
  dsimp only [List.append_eq] at hstarts ⊢
  rwa [hhead] at hstarts

/-- A plain scalar cannot start like a comment. -/
theorem ne_hash_of_startsPlain {c : Char} {rest : List Char}
    (h : ({ rest := c :: rest } : Scanner).startsPlain = true) : c ≠ '#' := by
  rintro rfl
  rw [startsPlain_eq rfl rfl] at h
  simp at h

theorem head_key {key : List Char} (h : KeyText key) :
    ∃ c more, key = c :: more ∧ isGap c = false ∧ c ≠ '#' := by
  obtain ⟨c, more, rfl⟩ := List.exists_cons_of_ne_nil h.ne_nil
  exact ⟨c, more, rfl, h.isGap_head c rfl, ne_hash_of_startsPlain h.starts⟩

/-- What follows a sign that belongs to no separator does not matter. -/
theorem startsSeparator_append {c : Char} (hdash : c ≠ '-') (hdot : c ≠ '.')
    (front rest : List Char) :
    startsSeparator (front ++ c :: rest) = startsSeparator (front ++ [c]) := by
  unfold startsSeparator
  -- Only the first four characters matter.
  rcases front with _ | ⟨a, _ | ⟨b, _ | ⟨d, _ | ⟨e, more⟩⟩⟩⟩ <;> grind [startsGap]

theorem startsSeparator_colon (key rest : List Char) :
    startsSeparator (key ++ ':' :: rest) = startsSeparator (key ++ [':']) :=
  startsSeparator_append (by decide) (by decide) key rest

theorem Stands.unwind {text : List Char} (h : s.Stands text found) (column : Int) :
    (s.unwind column).Stands text (found.close column) where
  rest := (rest_unwind s column).trans h.rest
  flow := (flow_unwind s column).trans h.flow
  candidate := (candidate_unwind s column).trans h.candidate
  blocks := by rw [blocks_unwind h.flow, h.blocks]

/-- The place of a scanner as one where a key may have started. -/
def here (s : Scanner) : Candidate := ⟨s.tokens.size, s.indent == s.position.column, s.position⟩

/-- A scanner behind a plain scalar, in front of the colon that makes it a key. -/
def behindKey (s : Scanner) (key rest : List Char) : Scanner :=
  { s with candidate := some s.here, keyAllowed := false }.take
    (.scalar true (String.ofList key)) (':' :: rest)

/-- A scanner behind the colon of a key. -/
def behindColon (s : Scanner) (key rest : List Char) : Scanner :=
  ((s.behindKey key rest).confirmKey s.here).take .value rest

section Key

variable {key rest : List Char}

theorem Stands.plain_key (h : s.Stands (key ++ ':' :: rest) found) (hallowed : s.keyAllowed = true)
    (hkey : KeyText key) (hrest : startsGap rest = true) :
    s.plain = .ok (s.behindKey key rest) := by
  have hread := plainScalar_eq hkey.toPlainText (fun _ => rfl)
    (by rw [endsWord_cons, hrest]; rfl) (stops_colon (s.indent + 1) rest)
  rw [plainGap_colon, ← h.rest] at hread
  exact plain_eq (saveCandidate_eq hallowed h.flow h.candidate) h.flow hread

theorem Stands.flow_behindKey (h : s.Stands (key ++ ':' :: rest) found) :
    (s.behindKey key rest).flow = [] := h.flow

theorem Stands.position_behindKey (h : s.Stands (key ++ ':' :: rest) found) (hkey : KeyText key) :
    (s.behindKey key rest).position =
      ⟨s.position.line, s.position.column + key.length, s.position.index + key.length⟩ := by
  show s.position.behind s.rest (':' :: rest) = _
  rw [h.rest]
  exact s.position.behind_inline hkey.inline (':' :: rest)

/-- The colon behind a key confirms it. -/
theorem Stands.run_behindKey (h : s.Stands (key ++ ':' :: rest) found)
    (hindent : found.indent ≤ s.position.column) (hkey : KeyText key)
    (hrest : startsGap rest = true) :
    run (s.behindKey key rest) = run (s.behindColon key rest) := by
  have hposition := h.position_behindKey hkey
  have hflow := h.flow_behindKey
  have hskip : (s.behindKey key rest).skip = s.behindKey key rest :=
    skip_of_not_blank rfl (.inr (by decide)) (by decide) (by decide)
  have hfresh : (s.behindKey key rest).isStale s.here = false := by
    have hlength := hkey.length_le
    rw [isStale, hposition]
    simp [here]
    omega
  have hready : (s.behindKey key rest).skip.dropStale = .ok (s.behindKey key rest) := by
    rw [hskip]
    exact dropStale_of_fresh rfl hflow hfresh
  have hunwind :
      (s.behindKey key rest).unwind (s.behindKey key rest).position.column =
        s.behindKey key rest := by
    refine unwind_of_le hflow ?_
    have hsame : (s.behindKey key rest).blocks.indent = s.blocks.indent := rfl
    rw [hsame, h.blocks, hposition]
    push_cast
    omega
  refine run_of_token hready rfl hflow ?_ (Nat.lt_succ_self _)
  rw [hunwind, token_colon hflow hrest, value_eq rfl hflow]
  rfl

theorem Stands.position_behindColon (h : s.Stands (key ++ ':' :: rest) found)
    (hkey : KeyText key) :
    (s.behindColon key rest).position = ⟨s.position.line, s.position.column + key.length + 1,
      s.position.index + key.length + 1⟩ := by
  have hset := setCurrent_eq h.flow_behindKey none
  have hrest : ((s.behindKey key rest).setCurrent none).rest = [':'] ++ rest := by rw [hset]; rfl
  have hstart : ((s.behindKey key rest).setCurrent none).position =
      (s.behindKey key rest).position := by rw [hset]
  show ((s.behindKey key rest).setCurrent none).position.behind
    ((s.behindKey key rest).setCurrent none).rest rest = _
  rw [hrest, Position.behind_inline _ (List.forall_mem_singleton.mpr rfl), hstart,
    h.position_behindKey hkey]
  rfl

theorem Stands.blocks_behindColon (h : s.Stands (key ++ ':' :: rest) found) :
    (s.behindColon key rest).blocks = (found.enter s.position.column).write
      [.key, .scalar true (String.ofList key), .value] := by
  have hconfirmed : ((s.behindKey key rest).confirmKey s.here).blocks =
      (s.blocks.enter s.position.column).write [.key, .scalar true (String.ofList key)] :=
    blocks_confirmKey h.flow_behindKey rfl rfl
  rw [behindColon, blocks_take, hconfirmed, h.blocks, Blocks.write_write]
  rfl

theorem Stands.behindColon (h : s.Stands (key ++ ':' :: rest) found)
    (hindent : found.indent ≤ s.position.column) (hkey : KeyText key) :
    (s.behindColon key rest).Behind rest ((found.enter s.position.column).write
      [.key, .scalar true (String.ofList key), .value]) := by
  have hposition := h.position_behindColon hkey
  have hset := setCurrent_eq h.flow_behindKey none
  exact {
    rest := rfl
    flow := by
      show ((s.behindKey key rest).setCurrent none).flow = []
      rw [hset]
      exact h.flow
    candidate := by
      show ((s.behindKey key rest).setCurrent none).candidate = none
      rw [hset]
    blocks := h.blocks_behindColon
    keyAllowed := rfl
    column := by
      rw [hposition]
      show (found.enter s.position.column).indent < _
      rw [Blocks.indent_enter hindent]
      push_cast
      omega
    started := by rw [hposition]; exact Nat.succ_pos _
    index := by rw [hposition]; exact Nat.succ_pos _ }

end Key

/-- One token from where a scanner stands. -/
theorem Stands.run {c : Char} {rest : List Char} (h : s.skip.Stands (c :: rest) found)
    (htoken : (s.skip.unwind s.skip.position.column).token c rest = .ok next)
    (hshorter : next.rest.length ≤ rest.length) : Scanner.run s = Scanner.run next := by
  have hready : s.skip.dropStale = .ok s.skip := dropStale_eq h.candidate h.flow
  refine run_of_token hready h.rest h.flow htoken ?_
  have hlength := length_skip_le s
  rw [h.rest, List.length_cons] at hlength
  omega

/-- A key at the beginning of a line is found together with its colon. -/
theorem Meets.key {key rest : List Char} (h : s.Meets column (key ++ ':' :: rest) found)
    (hkey : KeyText key) (hrest : startsGap rest = true) :
    ∃ next, run s = run next ∧ next.Behind rest (found.key column (String.ofList key)) := by
  obtain ⟨hcolumn, hallowed⟩ := h.place (by simp)
  let opened := s.skip.unwind s.skip.position.column
  have hopened : opened.Stands (key ++ ':' :: rest) (found.close s.skip.position.column) :=
    h.stands.unwind s.skip.position.column
  have hunwound : opened = _ := unwind_eq h.stands.flow s.skip.position.column
  have hposition : opened.position = s.skip.position := by rw [hunwound]
  have hindent : (found.close s.skip.position.column).indent ≤ opened.position.column := by
    rw [hposition]
    exact Blocks.indent_close_le (by omega) found
  have hplain := hopened.plain_key
    (by rw [hunwound]; exact hallowed) hkey hrest
  obtain ⟨c, more, rfl⟩ := List.exists_cons_of_ne_nil hkey.ne_nil
  have htoken := (token_of_startsPlain hopened.rest hopened.flow
    (startsPlain_key hkey hopened.rest hopened.flow)
    (fun _ => by rw [hopened.rest, startsSeparator_colon]; exact hkey.separator)).trans hplain
  have hshorter : (opened.behindKey (c :: more) rest).rest.length ≤
      (more ++ ':' :: rest).length := by
    simp [behindKey, take, push, moveTo]
  have hbehind := hopened.behindColon hindent hkey
  rw [hposition, hcolumn] at hbehind
  exact ⟨opened.behindColon (c :: more) rest,
    (h.stands.run htoken hshorter).trans (hopened.run_behindKey hindent hkey hrest), hbehind⟩

end Keys

/-! ## Values -/

/-- A way of writing a scalar as the value of a key. It is read to its end, or, if white space could
belong to it, to the text in a line below. -/
structure Spells (chars : List Char) (plain : Bool) (text : String) : Prop where
  head : ∃ c more, chars = c :: more ∧ isGap c = false ∧ c ≠ '#'
  token : ∀ {s : Scanner} {found : Blocks} {rest body : List Char} {column : Nat},
    s.Stands (chars ++ rest) found → s.keyAllowed = false → 0 < s.position.column →
      Turns rest column body → (column : Int) ≤ found.indent →
        ∃ c after left allowed, chars ++ rest = c :: after ∧
          s.token c after =
            .ok ({ s with keyAllowed := allowed }.take (.scalar plain text) left) ∧
          (left = rest ∨ left = body ∧ (body ≠ [] → allowed = true))

section Values

variable {s next : Scanner} {column : Nat} {found : Blocks} {rest body : List Char}

theorem Stands.moved (h : s.Stands rest found) (left : List Char) (allowed : Bool) :
    ({ s.moveTo left with keyAllowed := allowed } : Scanner).Stands left found :=
  ⟨rfl, h.flow, h.candidate, h.blocks⟩

/-- White space leads to the text in the line below. -/
theorem Stands.meets (h : s.Stands rest found) (hindex : 0 < s.position.index)
    (hturns : Turns rest column body) : s.Meets column body found := by
  have hskip := skip_eq (.inl hindex)
  cases hturns with
  | @line column c more hgap hcomment hseparator =>
      have hblank := skipBlank_spaces column hgap hcomment more
      rw [h.rest, skipBlank_lineFeed, hblank, inFlow, h.flow] at hskip
      refine ⟨hskip ▸ h.moved _ _, fun _ => ?_⟩
      rw [hskip]
      refine ⟨?_, Bool.or_true _⟩
      show (s.position.behind s.rest (c :: more)).column = column
      rw [h.rest]
      exact s.position.column_behind_line [] column (c :: more)
  | done count =>
      rw [h.rest, skipBlank_breaks] at hskip
      exact ⟨hskip ▸ h.moved _ _, fun hne => (hne rfl).elim⟩

/-- A scanner that has passed the line break already. -/
theorem Stands.meets_passed {chars : List Char} (h : s.Stands (chars ++ rest) found)
    (hturns : Turns rest column body) {token : Token} {allowed : Bool}
    (hallowed : body ≠ [] → allowed = true) :
    ({ s with keyAllowed := allowed }.take token body).Meets column body
      (found.write [token]) := by
  let next := ({ s with keyAllowed := allowed } : Scanner).take token body
  have hnext : next.Stands body (found.write [token]) :=
    ⟨rfl, h.flow, h.candidate, (blocks_take _ _ _).trans (congrArg (Blocks.write [token]) h.blocks)⟩
  have hposition : next.position = s.position.behind (chars ++ rest) body :=
    congrArg (s.position.behind · body) h.rest
  cases hturns with
  | @line column c more hgap hcomment hseparator =>
      have hindex : 0 < next.position.index := by
        have hsplit : chars ++ '\n' :: (List.replicate column ' ' ++ c :: more) =
            (chars ++ '\n' :: List.replicate column ' ') ++ c :: more := by simp
        rw [hposition, hsplit, Position.index_behind]
        simp
      have hskip : next.skip = next := skip_of_not_blank rfl (.inl hindex) hgap hcomment
      refine ⟨hskip.symm ▸ hnext, fun hne => ?_⟩
      rw [hskip]
      exact ⟨hposition ▸ s.position.column_behind_line chars column (c :: more), hallowed hne⟩
  | done count =>
      have hskip := skip_eq (s := next) (.inr (by simp [hnext.rest]))
      rw [hnext.rest, skipBlank_nil] at hskip
      exact ⟨hskip ▸ hnext.moved [] _, fun hne => (hne rfl).elim⟩

/-- A space behind a key leads to its value, which is deeper than what is open. -/
theorem Behind.skip {c : Char} {rest : List Char} (h : s.Behind (' ' :: c :: rest) found)
    (hgap : isGap c = false) (hcomment : c ≠ '#') :
    s.skip.Stands (c :: rest) found ∧ s.skip.keyAllowed = false ∧ 0 < s.skip.position.column ∧
      s.skip.unwind s.skip.position.column = s.skip := by
  have hskip : s.skip = { s.moveTo (c :: rest) with keyAllowed := false } := by
    have hblank : skipBlank (' ' :: c :: rest) = (c :: rest, false) :=
      skipBlank_spaces 1 hgap hcomment rest
    rw [skip_eq (.inl h.index), h.rest, hblank, h.keyAllowed]
    rfl
  have hstands : s.skip.Stands (c :: rest) found := hskip ▸ h.moved _ _
  have hposition : s.skip.position =
      ⟨s.position.line, s.position.column + 1, s.position.index + 1⟩ := by
    have hspace : s.rest = [' '] ++ c :: rest := h.rest
    rw [hskip]
    show s.position.behind s.rest (c :: rest) = _
    rw [hspace]
    exact s.position.behind_inline (List.forall_mem_singleton.mpr rfl) _
  refine ⟨hstands, by rw [hskip], by rw [hposition]; exact Nat.succ_pos _, ?_⟩
  apply unwind_of_le hstands.flow
  have := h.column
  rw [hstands.blocks, hposition]
  push_cast
  omega

/-- A value behind a key leads to the next line. -/
theorem Behind.value {chars : List Char} {plain : Bool} {text : String}
    (h : s.Behind (' ' :: (chars ++ rest)) found) (hspells : Spells chars plain text)
    (hturns : Turns rest column body) (hcolumn : (column : Int) ≤ found.indent) :
    ∃ next, run s = run next ∧ next.Meets column body (found.write [.scalar plain text]) := by
  obtain ⟨c, more, rfl, hgap, hcomment⟩ := hspells.head
  obtain ⟨hready, hallowed, hstarted, hunwind⟩ := h.skip hgap hcomment
  have hstands : s.skip.Stands (c :: more ++ rest) found := hready
  obtain ⟨d, after, left, allowed, htext, htoken, hleft⟩ := hspells.token hstands
    hallowed hstarted hturns hcolumn
  obtain ⟨rfl, rfl⟩ := List.cons.inj htext
  have hshorter : left.length ≤ (more ++ rest).length := by
    have hbody := hturns.length_le
    rw [List.length_append]
    rcases hleft with rfl | ⟨rfl, -⟩ <;> omega
  let next := ({ s.skip with keyAllowed := allowed } : Scanner).take (.scalar plain text) left
  refine ⟨next, hstands.run (by rw [hunwind]; exact htoken) hshorter, ?_⟩
  rcases hleft with rfl | ⟨rfl, hallowed⟩
  · refine Stands.meets ⟨rfl, hstands.flow, hstands.candidate, ?_⟩ ?_ hturns
    · rw [blocks_take]
      exact congrArg (Blocks.write [.scalar plain text]) hstands.blocks
    · show 0 < (s.skip.position.behind s.skip.rest left).index
      rw [hstands.rest, Position.index_behind]
      simp
  · exact hstands.meets_passed hturns hallowed

/-- A text that looks plain is its own spelling. -/
theorem Spells.of_plain {text : List Char} (h : PlainText text)
    (hcolon : text.getLast? ≠ some ':')
    (hstarts : ({ rest := text } : Scanner).startsPlain = true) :
    Spells text true (String.ofList text) := by
  obtain ⟨c, more, rfl⟩ := List.exists_cons_of_ne_nil h.ne_nil
  have hstart := startsPlain_eq (s := { rest := c :: more }) rfl rfl
  rw [hstarts] at hstart
  refine ⟨⟨c, more, rfl, h.isGap_head c rfl, ne_hash_of_startsPlain hstarts⟩, ?_⟩
  · intro s found rest body column hstands hallowed hcolumn hturns hindent
    obtain ⟨hrest, hline⟩ := hturns.plainGap
    have htext : s.rest = c :: (more ++ rest) := hstands.rest
    have hstarts : s.startsPlain = true := by
      have hgap : startsGap (more ++ rest) = startsGap more := by
        cases more with
        | nil => exact hturns.startsGap
        | cons d more => rfl
      rw [startsPlain_eq htext hstands.flow, hgap]
      exact hstart.symm
    have hstops : Stops (s.indent + 1) rest := by
      rw [← hstands.blocks] at hindent
      exact hturns.stops (Int.lt_add_one_of_le hindent)
    have hread := plainScalar_eq h (fun hlast => (hcolon hlast).elim) hturns.endsWord hstops
    rw [← hstands.rest, hrest] at hread
    refine ⟨c, more ++ rest, body, (plainGap rest).crossed, rfl, ?_,
      .inr ⟨rfl, fun hne => (hline hne).1⟩⟩
    rw [token_of_startsPlain htext hstands.flow hstarts fun hzero => by omega]
    exact plain_eq (saveCandidate_eq_self hallowed) hstands.flow hread

/-! ## Both ends of a text -/

theorem dropCurrent_eq (hflow : s.flow = []) (hcandidate : s.candidate = none) :
    s.dropCurrent = .ok s := by
  obtain ⟨rest, position, tokens, indents, keyAllowed, candidate, flow⟩ := s
  cases hflow
  cases hcandidate
  rfl

theorem documentMark_eq (h : s.Stands rest ⟨[], []⟩) (token : Token) :
    s.documentMark token = .ok ({ s with keyAllowed := false }.take token (rest.drop 3)) := by
  have hunwind : s.unwind (-1) = s := unwind_of_le h.flow (by rw [h.blocks]; exact le_rfl)
  rw [documentMark, hunwind, dropCurrent_eq h.flow h.candidate, ← h.rest]
  rfl

/-- The sign of a document leads to its first line. -/
theorem run_documentStart (rest : List Char) :
    ∃ next, run { rest := '-' :: '-' :: '-' :: '\n' :: rest } = run next ∧
      next.Behind ('\n' :: rest) ⟨[], [.documentStart]⟩ := by
  let start : Scanner := { rest := '-' :: '-' :: '-' :: '\n' :: rest }
  let next : Scanner := { start with keyAllowed := false }.take .documentStart ('\n' :: rest)
  have hstands : start.Stands ('-' :: '-' :: '-' :: '\n' :: rest) ⟨[], []⟩ :=
    ⟨rfl, rfl, rfl, rfl⟩
  have hskip : start.skip = start :=
    skip_of_not_blank rfl (.inr (by decide)) (by decide) (by decide)
  have hunwind : start.unwind start.position.column = start :=
    unwind_of_le rfl (by rw [hstands.blocks]; exact neg_one_lt_zero.le)
  have htoken : start.token '-' ('-' :: '-' :: '\n' :: rest) = .ok next :=
    documentMark_eq hstands .documentStart
  have hmark : ∀ c ∈ ['-', '-', '-'], isInline c = true := by simp [isInline, isBreak]
  have hposition : next.position = ⟨0, 3, 3⟩ :=
    Position.behind_inline {} hmark ('\n' :: rest)
  have hshorter : next.rest.length ≤ ('-' :: '-' :: '\n' :: rest).length := by
    simp [next, take, push, moveTo]
  refine ⟨next, Stands.run (hskip.symm ▸ hstands) ?_ hshorter, ?_⟩
  · rw [hskip, hunwind]
    exact htoken
  · exact {
      rest := rfl
      flow := rfl
      candidate := rfl
      blocks := by rw [blocks_take]; rfl
      keyAllowed := rfl
      column := by rw [hposition]; decide
      started := by rw [hposition]; decide
      index := by rw [hposition]; decide }

/-- The end of a text closes what is open, and a node that might have been a key is none. -/
theorem exists_run_end (hrest : s.skip.rest = []) (hflow : s.skip.flow = [])
    (hblocks : s.skip.blocks = found)
    (hcandidate : ∀ candidate ∈ s.skip.candidate, candidate.required = false) :
    ∃ last, run s = .ok last ∧
      last.blocks.tokens = (found.close (-1)).tokens ++ [.streamEnd] := by
  let fresh := s.skip.candidate.filter (!s.skip.isStale ·)
  let ready : Scanner := { s.skip with candidate := fresh }
  let last := (ready.unwind ready.position.column).unwind (-1)
  have hfresh : ∀ candidate ∈ fresh, candidate.required = false :=
    fun candidate hmem => hcandidate candidate (Option.mem_filter_iff.mp hmem).1
  have hready : s.skip.dropStale = .ok ready := by
    have hstale : (s.skip.candidate.any fun other =>
        other.required && s.skip.isStale other) = false := by
      cases h : s.skip.candidate with
      | none => rfl
      | some other => simp [hcandidate other h]
    rw [dropStale, hstale, if_neg Bool.false_ne_true]
    simp [ready, fresh, hflow]
  have hlastFlow : last.flow = [] := by rw [flow_unwind, flow_unwind]; exact hflow
  have hlast : last.dropCurrent = .ok { last with candidate := none } := by
    have hrequired : (last.current.any (·.required)) = false := by
      rw [current, hlastFlow, candidate_unwind, candidate_unwind]
      cases h : fresh with
      | none => simp [ready, h]
      | some other => simp [ready, h, hfresh other h]
    rw [dropCurrent, hrequired, if_neg Bool.false_ne_true, setCurrent_eq hlastFlow]
  refine ⟨({ last with candidate := none } : Scanner).push .streamEnd last.position last.position,
    ?_, ?_⟩
  · have hnil : (ready.unwind ready.position.column).rest = [] := (rest_unwind _ _).trans hrest
    rw [run, hready]
    dsimp only
    rw [hnil]
    dsimp only
    rw [Scanner.finish, hlast]
    rfl
  · have hblocks : ready.blocks = found := hblocks
    have hflow : ready.flow = [] := hflow
    have hclosed : last.blocks = found.close (-1) := by
      rw [show last = _ from rfl, blocks_unwind ((flow_unwind _ _).trans hflow),
        blocks_unwind hflow, hblocks, Blocks.close_close (by omega)]
    rw [← hclosed]
    simp [push, blocks]

theorem Meets.finish (h : s.Meets column [] found) :
    ∃ last, run s = .ok last ∧
      last.blocks.tokens = (found.close (-1)).tokens ++ [.streamEnd] :=
  exists_run_end h.stands.rest h.stands.flow h.stands.blocks fun candidate hcandidate => by
    rw [h.stands.candidate] at hcandidate
    cases hcandidate

end Values

end Scanner

end LayeredConfig.Yaml
