import LayeredConfig.Proofs.Yaml.Plain
import LayeredConfig.Yaml.Scan

/-! # Single steps of the scanner

What the scanner does with white space, with the columns of open block collections, with a plain
scalar and with the colon behind a key, as long as no flow collection is open. -/

namespace LayeredConfig.Yaml

/-! ## Open collections -/

/-- The columns of the open block collections, the innermost first, and the tokens so far. -/
structure Blocks where
  indents : List Nat
  tokens : List Token

namespace Blocks

/-- The column of the innermost collection, or minus one. -/
def indent (blocks : Blocks) : Int := blocks.indents.head?.elim (-1) Int.ofNat

def write (more : List Token) (blocks : Blocks) : Blocks :=
  { blocks with tokens := blocks.tokens ++ more }

theorem write_write (blocks : Blocks) (first second : List Token) :
    (blocks.write first).write second = blocks.write (first ++ second) := by
  simp [write]

/-- Collections that are indented deeper than a column are at their end. -/
def close (column : Int) (blocks : Blocks) : Blocks where
  indents := blocks.indents.dropWhile fun indent => column < Int.ofNat indent
  tokens := blocks.tokens ++ List.replicate
    (blocks.indents.takeWhile fun indent => column < Int.ofNat indent).length .blockEnd

/-- A key opens a mapping in its column unless one is open there. -/
def enter (column : Nat) (blocks : Blocks) : Blocks :=
  if blocks.indent < column then
    ⟨column :: blocks.indents, blocks.tokens ++ [.blockMappingStart]⟩
  else blocks

/-- A key belongs to the mapping in its column. -/
def key (column : Nat) (key : String) (blocks : Blocks) : Blocks :=
  ((blocks.close column).enter column).write [.key, .scalar true key, .value]

section Close

variable {column : Int} {indent : Nat} (rest : List Nat) (tokens : List Token)

theorem close_nil (column : Int) : close column ⟨[], tokens⟩ = ⟨[], tokens⟩ := by
  simp [close]

theorem close_cons_of_lt (h : column < Int.ofNat indent) :
    close column ⟨indent :: rest, tokens⟩ = close column ⟨rest, tokens ++ [.blockEnd]⟩ := by
  simp only [close, List.dropWhile_cons, List.takeWhile_cons, decide_eq_true h, if_true,
    List.length_cons, List.replicate_succ, List.append_assoc, List.singleton_append]

theorem close_cons_of_le (h : Int.ofNat indent ≤ column) :
    close column ⟨indent :: rest, tokens⟩ = ⟨indent :: rest, tokens⟩ := by
  simp only [close, List.dropWhile_cons, List.takeWhile_cons, decide_eq_false (not_lt.mpr h),
    Bool.false_eq_true, if_false, List.length_nil, List.replicate_zero, List.append_nil]

end Close

theorem close_eq_self {column : Int} {blocks : Blocks} (h : blocks.indent ≤ column) :
    blocks.close column = blocks := by
  obtain ⟨indents, tokens⟩ := blocks
  cases indents with
  | nil => exact close_nil tokens column
  | cons indent outer => exact close_cons_of_le outer tokens h

theorem indent_close_le {column : Int} (h : -1 ≤ column) (blocks : Blocks) :
    (blocks.close column).indent ≤ column := by
  obtain ⟨indents, tokens⟩ := blocks
  induction indents generalizing tokens with
  | nil => rwa [close_nil]
  | cons indent outer ih =>
      rcases lt_or_ge column (Int.ofNat indent) with hlt | hle
      · rw [close_cons_of_lt outer tokens hlt]
        exact ih _
      · rwa [close_cons_of_le outer tokens hle]

theorem close_close {column outer : Int} (h : outer ≤ column) (blocks : Blocks) :
    (blocks.close column).close outer = blocks.close outer := by
  obtain ⟨indents, tokens⟩ := blocks
  induction indents generalizing tokens with
  | nil => rw [close_nil]
  | cons indent rest ih =>
      rcases lt_or_ge column (Int.ofNat indent) with hlt | hle
      · rw [close_cons_of_lt rest tokens hlt, close_cons_of_lt rest tokens (h.trans_lt hlt), ih]
      · rw [close_cons_of_le rest tokens hle]

theorem indent_enter {column : Nat} {blocks : Blocks} (h : blocks.indent ≤ column) :
    (blocks.enter column).indent = column := by
  unfold Blocks.enter
  split
  · rfl
  · next hge => exact le_antisymm h (not_lt.mp hge)

theorem indent_key (column : Nat) (key : String) (blocks : Blocks) :
    (blocks.key column key).indent = column :=
  indent_enter (indent_close_le (by omega) blocks)

end Blocks

/-! ## White space in front of a token -/

namespace Scanner

theorem skipBlank_spaces (count : Nat) {c : Char} (hgap : isGap c = false) (hcomment : c ≠ '#')
    (rest : List Char) :
    skipBlank (List.replicate count ' ' ++ c :: rest) = (c :: rest, false) := by
  obtain ⟨hspace, -, hbreak⟩ := isGap_eq_false_iff.mp hgap
  have hdrop : (List.replicate count ' ' ++ c :: rest).dropWhile (· == ' ') = c :: rest := by
    refine Text.dropWhile_append_eq eq_space_of_mem_replicate ?_
    rintro d ⟨⟩
    exact beq_false_of_ne hspace
  have hhash : ((c :: rest).head? == some '#') = false :=
    beq_false_of_ne fun heq => hcomment (Option.some.inj heq)
  rw [skipBlank, hdrop, hhash]
  simp only [Bool.false_eq_true, if_false]
  rw [takeBreak?_cons hbreak]

theorem skipBlank_spaces_lineFeed (count : Nat) (after : List Char) :
    skipBlank (List.replicate count ' ' ++ '\n' :: after) = ((skipBlank after).1, true) := by
  have hdrop : (List.replicate count ' ' ++ '\n' :: after).dropWhile (· == ' ') = '\n' :: after :=
    Text.dropWhile_append_eq eq_space_of_mem_replicate (by simp)
  have hhash : (('\n' :: after).head? == some '#') = false := beq_false_of_ne (by simp)
  rw [skipBlank, hdrop, hhash]
  simp only [Bool.false_eq_true, if_false]
  rw [takeBreak?_lineFeed]
  refine dif_pos ?_
  simp
  omega

theorem skipBlank_lineFeed (after : List Char) :
    skipBlank ('\n' :: after) = ((skipBlank after).1, true) := skipBlank_spaces_lineFeed 0 after

theorem skipBlank_nil : skipBlank [] = ([], false) := by
  rw [skipBlank]
  rfl

theorem skipBlank_breaks (count : Nat) : (skipBlank (List.replicate count '\n')).1 = [] := by
  induction count with
  | zero => rw [List.replicate_zero, skipBlank_nil]
  | succ count ih => rw [List.replicate_succ, skipBlank_lineFeed, ih]

theorem length_skipBlank_le (text : List Char) : (skipBlank text).1.length ≤ text.length := by
  induction hlength : text.length using Nat.strong_induction_on generalizing text with
  | _ length ih =>
      subst hlength
      have hdrop := (List.dropWhile_suffix (l := text) (· == ' ')).length_le
      have hrest : ∀ rest : List Char,
          (if rest.head? == some '#' then rest.dropWhile (!isBreak ·) else rest).length ≤
            rest.length := by
        intro rest
        split
        · exact (List.dropWhile_suffix _).length_le
        · exact le_rfl
      rw [skipBlank]
      split
      · exact (hrest _).trans hdrop
      · next after htake =>
        have hafter := (takeBreak?_length htake).trans_le ((hrest _).trans hdrop)
        rw [dif_pos hafter]
        exact (ih after.length hafter after rfl).trans hafter.le

theorem skip_eq {s : Scanner} (hmark : 0 < s.position.index ∨ s.rest.head? ≠ some '\uFEFF') :
    s.skip = { s.moveTo (skipBlank s.rest).1 with
      keyAllowed := s.keyAllowed || ((skipBlank s.rest).2 && !s.inFlow) } := by
  have hfalse : (s.position.index == 0 && s.rest.head? == some '\uFEFF') = false := by
    rw [Bool.and_eq_false_iff]
    exact hmark.imp (fun h => beq_false_of_ne (Nat.ne_of_gt h)) beq_false_of_ne
  rw [skip, hfalse]
  rfl

theorem skip_of_not_blank {s : Scanner} {c : Char} {rest : List Char} (hrest : s.rest = c :: rest)
    (hmark : 0 < s.position.index ∨ c ≠ '\uFEFF') (hgap : isGap c = false) (hcomment : c ≠ '#') :
    s.skip = s := by
  have hblank : skipBlank s.rest = (s.rest, false) := by
    rw [hrest]
    exact skipBlank_spaces 0 hgap hcomment rest
  rw [skip_eq (by simpa [hrest] using hmark), hblank, moveTo, Position.behind, Nat.sub_self,
    Position.after, Bool.false_and, Bool.or_false]

/-! ## Single steps -/

section Steps

variable {s next : Scanner}

def blocks (s : Scanner) : Blocks := ⟨s.indents, s.tokens.toList.map (·.token)⟩

theorem blocks_take (token : Token) (rest : List Char) (s : Scanner) :
    (s.take token rest).blocks = s.blocks.write [token] := by
  simp [take, push, moveTo, blocks, Blocks.write]

theorem unwind_eq (hflow : s.flow = []) (column : Int) :
    s.unwind column = { s with
      indents := s.indents.dropWhile fun indent => column < Int.ofNat indent
      tokens := s.tokens ++ Array.replicate
        (s.indents.takeWhile fun indent => column < Int.ofNat indent).length
        ⟨.blockEnd, s.position, s.position⟩ } := by
  have hdrop (p : Nat → Bool) (indents : List Nat) :
      indents.drop (indents.takeWhile p).length = indents.dropWhile p :=
    calc indents.drop (indents.takeWhile p).length
      _ = (indents.takeWhile p ++ indents.dropWhile p).drop (indents.takeWhile p).length := by
          rw [List.takeWhile_append_dropWhile]
      _ = indents.dropWhile p := List.drop_left
  rw [unwind, inFlow, hflow, if_neg (by simp)]
  dsimp only
  rw [hdrop]

theorem rest_unwind (s : Scanner) (column : Int) : (s.unwind column).rest = s.rest := by
  rw [unwind]
  split <;> rfl

theorem flow_unwind (s : Scanner) (column : Int) : (s.unwind column).flow = s.flow := by
  rw [unwind]
  split <;> rfl

theorem candidate_unwind (s : Scanner) (column : Int) :
    (s.unwind column).candidate = s.candidate := by
  rw [unwind]
  split <;> rfl

theorem blocks_unwind (hflow : s.flow = []) (column : Int) :
    (s.unwind column).blocks = s.blocks.close column := by
  rw [unwind_eq hflow]
  simp [blocks, Blocks.close]

theorem dropStale_eq (hcandidate : s.candidate = none) (hflow : s.flow = []) :
    s.dropStale = .ok s := by
  obtain ⟨rest, position, tokens, indents, keyAllowed, candidate, flow⟩ := s
  cases hcandidate
  cases hflow
  rfl

/-- One token in front of the rest of a run. -/
theorem run_of_token {ready : Scanner} {c : Char} {rest : List Char}
    (hready : s.skip.dropStale = .ok ready) (hrest : ready.rest = c :: rest)
    (hflow : ready.flow = [])
    (htoken : (ready.unwind ready.position.column).token c rest = .ok next)
    (hshorter : next.rest.length < s.rest.length) : run s = run next := by
  have hunwound : (ready.unwind ready.position.column).rest = c :: rest := by
    rw [unwind_eq hflow]
    exact hrest
  rw [run, hready]
  dsimp only
  rw [hunwound]
  dsimp only
  rw [htoken]
  exact dif_pos hshorter

theorem startsPlain_eq {c : Char} {rest : List Char} (hrest : s.rest = c :: rest)
    (hflow : s.flow = []) :
    s.startsPlain =
      (!(isGap c || "-?:,[]\x7b\x7d#&*!|>'\"%@\x60".toList.contains c)
        || (!startsGap rest && (c == '-' || c == '?' || c == ':'))) := by
  rw [startsPlain, hrest, inFlow, hflow]
  simp [Bool.or_assoc]

/-- No other token may start where a plain scalar may. -/
theorem token_of_startsPlain {c : Char} {rest : List Char} (hrest : s.rest = c :: rest)
    (hflow : s.flow = []) (hstart : s.startsPlain = true)
    (hseparator : s.position.column = 0 → startsSeparator s.rest = false) :
    s.token c rest = s.plain := by
  have hmark : ((s.position.column == 0) && startsSeparator s.rest) = false :=
    Bool.and_eq_false_imp.mpr fun hzero => hseparator (beq_iff_eq.mp hzero)
  have hblock : s.inFlow = false := by rw [inFlow, hflow]; rfl
  have hstarts := startsPlain_eq hrest hflow
  have hsign : ∀ d ∈ ",[]\x7b\x7d#&*!|>'\"%@\x60".toList, (c == d) = false := by
    have hall : ∀ d ∈ ",[]\x7b\x7d#&*!|>'\"%@\x60".toList,
        "-?:,[]\x7b\x7d#&*!|>'\"%@\x60".toList.contains d = true ∧
          (d == '-' || d == '?' || d == ':') = false := by
      simp
    refine fun d hd => beq_false_of_ne ?_
    rintro rfl
    rw [(hall c hd).1, (hall c hd).2, hstart] at hstarts
    simp at hstarts
  have hgap : ∀ d ∈ "-?:".toList, (c == d && startsGap rest) = false := by
    have hall : ∀ d ∈ "-?:".toList,
        "-?:,[]\x7b\x7d#&*!|>'\"%@\x60".toList.contains d = true := by
      simp
    intro d hd
    rw [Bool.and_eq_false_imp]
    rintro heq
    cases beq_iff_eq.mp heq
    rw [hall c hd, hstart] at hstarts
    simp at hstarts
    exact hstarts.1
  simp only [String.reduceToList, List.forall_mem_cons] at hsign hgap
  simp only [token, hblock, Bool.and_assoc, hmark, hsign, hgap, hstart, Bool.false_and, Bool.and_false,
    Bool.false_or, Bool.false_eq_true, if_false, if_true]

theorem unwind_of_le {column : Int} (hflow : s.flow = []) (h : s.blocks.indent ≤ column) :
    s.unwind column = s := by
  rw [unwind_eq hflow]
  obtain ⟨rest, position, tokens, indents, keyAllowed, candidate, flow⟩ := s
  cases indents with
  | nil => simp
  | cons indent outer =>
      have hnot : decide (column < Int.ofNat indent) = false := decide_eq_false (not_lt.mpr h)
      simp only [List.dropWhile_cons, List.takeWhile_cons, hnot, Bool.false_eq_true, if_false,
        List.length_nil, Array.replicate_zero, Array.append_empty]

theorem dropStale_of_fresh {candidate : Candidate} (hcandidate : s.candidate = some candidate)
    (hflow : s.flow = []) (hfresh : s.isStale candidate = false) : s.dropStale = .ok s := by
  obtain ⟨rest, position, tokens, indents, keyAllowed, found, flow⟩ := s
  cases hcandidate
  cases hflow
  simp [dropStale, hfresh]

/-! ## Plain scalars -/

theorem saveCandidate_eq (hallowed : s.keyAllowed = true) (hflow : s.flow = [])
    (hcandidate : s.candidate = none) :
    s.saveCandidate = .ok { s with
      candidate := some ⟨s.tokens.size, s.indent == s.position.column, s.position⟩ } := by
  obtain ⟨rest, position, tokens, indents, keyAllowed, candidate, flow⟩ := s
  cases hallowed
  cases hflow
  cases hcandidate
  rfl

theorem saveCandidate_eq_self (hallowed : s.keyAllowed = false) : s.saveCandidate = .ok s := by
  rw [saveCandidate, hallowed]
  rfl

theorem plain_eq {saved : Scanner} (hsave : s.saveCandidate = .ok saved) (hflow : saved.flow = [])
    {scalar : PlainScalar}
    (hscalar : plainScalar false (saved.indent + 1) saved.rest = scalar) :
    s.plain = .ok ({ saved with keyAllowed := scalar.crossed }.take
      (.scalar true (String.ofList scalar.text)) scalar.rest) := by
  subst hscalar
  rw [plain, hsave]
  simp only [bind, Except.bind, inFlow, hflow]
  rfl

/-! ## Keys -/

theorem token_colon (hflow : s.flow = []) {rest : List Char} (hrest : startsGap rest = true) :
    s.token ':' rest = s.value := by
  have hblock : s.inFlow = false := by rw [inFlow, hflow]; rfl
  simp [token, hblock, hrest]

theorem value_eq {candidate : Candidate} (hcandidate : s.candidate = some candidate)
    (hflow : s.flow = []) :
    s.value = .ok ((s.confirmKey candidate).take .value (s.rest.drop 1)) := by
  rw [value, current, hflow, hcandidate]
  rfl

theorem setCurrent_eq (hflow : s.flow = []) (candidate : Option Candidate) :
    s.setCurrent candidate = { s with candidate } := by
  obtain ⟨rest, position, tokens, indents, keyAllowed, found, flow⟩ := s
  cases hflow
  rfl

theorem blocks_confirmKey {candidate : Candidate} {before : Array Located} {key : Located}
    (hflow : s.flow = []) (htokens : s.tokens = before.push key)
    (hplace : candidate.place = before.size) :
    (s.confirmKey candidate).blocks =
      (Blocks.enter candidate.position.column ⟨s.indents, before.toList.map (·.token)⟩).write
        [.key, key.token] := by
  have hfront : s.tokens.extract 0 candidate.place = before := by
    rw [htokens, hplace]
    simp
  have hback : s.tokens.extract candidate.place s.tokens.size = #[key] := by
    rw [htokens, hplace, Array.extract_push, Array.size_push]
    simp
  rw [confirmKey, hfront, hback, setCurrent_eq hflow, Blocks.enter]
  simp only [inFlow, hflow, List.isEmpty_nil, Bool.not_true, Bool.not_false, Bool.true_and]
  rw [show Blocks.indent ⟨s.indents, before.toList.map (·.token)⟩ = s.indent from rfl]
  by_cases hopens : s.indent < candidate.position.column
  · simp only [hopens, decide_true, if_true]
    simp [blocks, Blocks.write]
  · simp only [hopens, decide_false, if_false, Bool.false_eq_true]
    simp [blocks, Blocks.write]

end Steps

end Scanner

end LayeredConfig.Yaml
