import LayeredConfig.Proofs.Text.Lines
import LayeredConfig.Proofs.Yaml.Position
import LayeredConfig.Yaml.Plain
import Mathlib.Tactic.MkIffOfInductiveProp

/-! # Texts that are plain scalars

A text within a line is read as a plain scalar up to its end, spaces included, if no space stands at
its ends and neither a colon comes before a space nor a hash behind one. A scalar at the end of its
line leaves off in the next line, at the text there. -/

namespace LayeredConfig.Yaml

/-! ## Runs of characters -/

theorem eq_space_of_mem_replicate {count : Nat} :
    ∀ c ∈ List.replicate count ' ', (c == ' ') = true := fun _ hc =>
  beq_of_eq (List.eq_of_mem_replicate hc)

theorem exists_spaces (text : List Char) :
    ∃ (count : Nat) (rest : List Char),
      text = List.replicate count ' ' ++ rest ∧ rest.head? ≠ some ' ' := by
  induction text with
  | nil => exact ⟨0, [], rfl, nofun⟩
  | cons c text ih =>
      by_cases hc : c = ' '
      · obtain ⟨count, rest, rfl, hrest⟩ := ih
        exact ⟨count + 1, rest, by rw [hc]; rfl, hrest⟩
      · exact ⟨0, c :: text, rfl, fun heq => hc (Option.some.inj heq)⟩

theorem exists_word {text : List Char} (h : ∀ c ∈ text, isGap c = true → c = ' ') :
    ∃ word rest, text = word ++ rest ∧ (∀ c ∈ word, isGap c = false) ∧
      (rest = [] ∨ ∃ more, rest = ' ' :: more) := by
  induction text with
  | nil => exact ⟨[], [], rfl, nofun, .inl rfl⟩
  | cons c text ih =>
      cases hc : isGap c with
      | true =>
          exact ⟨[], c :: text, rfl, nofun, .inr ⟨text, by rw [h c List.mem_cons_self hc]⟩⟩
      | false =>
          obtain ⟨word, rest, rfl, hword, hrest⟩ :=
            ih fun d hd => h d (List.mem_cons_of_mem c hd)
          exact ⟨c :: word, rest, rfl, List.forall_mem_cons.mpr ⟨hc, hword⟩, hrest⟩

/-! ## Behind a scalar -/

/-- A text that goes on in a line below, with a sign that stands for itself, or not at all: the
column in which it goes on, and the text from there. -/
inductive Turns : List Char → Nat → List Char → Prop
  | line (column : Nat) {c : Char} {rest : List Char} (hgap : isGap c = false) (hcomment : c ≠ '#')
      (hseparator : startsSeparator (List.replicate column ' ' ++ c :: rest) = false) :
      Turns ('\n' :: (List.replicate column ' ' ++ c :: rest)) column (c :: rest)
  | done (count : Nat) : Turns (List.replicate count '\n') 0 []

theorem plainBlankLines_spaces (breaks : List Char) (start width : Nat) {c : Char}
    (hgap : isGap c = false) (rest : List Char) :
    plainBlankLines breaks start (List.replicate width ' ' ++ c :: rest) =
      (some breaks, start + width, c :: rest) := by
  obtain ⟨hspace, -, hbreak⟩ := isGap_eq_false_iff.mp hgap
  induction width generalizing start with
  | zero =>
      rw [List.replicate_zero, List.nil_append, plainBlankLines]
      · split
        · next htake => cases (takeBreak?_cons hbreak rest).symm.trans htake
        · rfl
      · rintro other heq
        exact hspace (List.cons.inj heq).1
  | succ width ih =>
      rw [List.replicate_succ, List.cons_append, plainBlankLines, ih, Nat.add_right_comm,
        Nat.add_assoc]

theorem startsSeparator_breaks (count : Nat) :
    startsSeparator (List.replicate count '\n') = false := by
  cases count <;> rfl

theorem plainBlankLines_breaks (breaks : List Char) (count : Nat) :
    plainBlankLines breaks 0 (List.replicate count '\n') =
      (some (breaks ++ List.replicate count '\n'), 0, []) := by
  induction count generalizing breaks with
  | zero =>
      rw [List.replicate_zero, plainBlankLines, List.append_nil]
      · split
        · next htake => cases htake
        · rfl
      · exact fun _ => List.cons_ne_nil _ _ ∘ Eq.symm
  | succ count ih =>
      rw [List.replicate_succ, plainBlankLines]
      · split
        · next htake =>
          cases (takeBreak?_lineFeed _).symm.trans htake
          rw [startsSeparator_breaks, if_neg Bool.false_ne_true, ih, List.append_assoc]
          rfl
        · next htake => cases (takeBreak?_lineFeed _).symm.trans htake
      · simp

theorem plainGap_lineFeed {after breaks left : List Char} {column : Nat}
    (hseparator : startsSeparator after = false)
    (hblank : plainBlankLines [] 0 after = (some breaks, column, left)) :
    plainGap ('\n' :: after) = ⟨foldBreaks '\n' breaks, true, column, left⟩ := by
  have hdrop : ('\n' :: after).dropWhile (· == ' ') = '\n' :: after :=
    List.dropWhile_cons_of_neg (by decide)
  simp only [plainGap, hdrop, takeBreak?_lineFeed, hseparator, hblank,
    Bool.false_eq_true, if_false]

theorem plainGap_spaces (count : Nat) {c : Char} (hgap : isGap c = false) (rest : List Char) :
    plainGap (List.replicate count ' ' ++ c :: rest) =
      ⟨List.replicate count ' ', false, 0, c :: rest⟩ := by
  obtain ⟨hspace, -, hbreak⟩ := isGap_eq_false_iff.mp hgap
  have hhead : ∀ d ∈ (c :: rest).head?, (d == ' ') = false := by
    rintro d ⟨⟩
    exact beq_false_of_ne hspace
  simp only [plainGap, Text.takeWhile_append_eq eq_space_of_mem_replicate hhead,
    Text.dropWhile_append_eq eq_space_of_mem_replicate hhead, takeBreak?_cons hbreak]

/-- A plain scalar in front of a text leaves off there. -/
def Stops (indent : Int) (text : List Char) : Prop :=
  let gap := plainGap text
  (gap.folded.isEmpty || gap.rest.head? == some '#' || (!false && gap.crossed && gap.column < indent)
    || endsWord false gap.rest) = true

/-- What a plain scalar finds in front of the text below it. -/
theorem Turns.plainGap {text body : List Char} {column : Nat} (h : Turns text column body) :
    (plainGap text).rest = body ∧
      (body ≠ [] → (plainGap text).crossed = true ∧ (plainGap text).column = column) := by
  cases h with
  | @line column c rest hgap hcomment hseparator =>
      rw [plainGap_lineFeed hseparator (plainBlankLines_spaces [] 0 column hgap rest)]
      exact ⟨rfl, fun _ => ⟨rfl, Nat.zero_add column⟩⟩
  | done count =>
      cases count with
      | zero => exact ⟨rfl, fun hne => (hne rfl).elim⟩
      | succ count =>
          rw [List.replicate_succ, plainGap_lineFeed (startsSeparator_breaks count)
            (plainBlankLines_breaks [] count)]
          exact ⟨rfl, fun hne => (hne rfl).elim⟩

theorem Turns.length_le {text body : List Char} {column : Nat} (h : Turns text column body) :
    body.length ≤ text.length := by
  cases h with
  | line column => simp; omega
  | done count => exact Nat.zero_le _

theorem Turns.stops {text body : List Char} {column : Nat} (h : Turns text column body)
    {indent : Int} (hindent : (column : Int) < indent) : Stops indent text := by
  obtain ⟨hrest, hline⟩ := h.plainGap
  rw [Stops]
  by_cases hbody : body = []
  · rw [hrest, hbody, endsWord, Bool.or_true]
  · obtain ⟨hcrossed, hcolumn⟩ := hline hbody
    rw [hcrossed, hcolumn, decide_eq_true hindent]
    simp

theorem Turns.endsWord {text body : List Char} {column : Nat} (h : Turns text column body) :
    endsWord false text = true := by
  cases h with
  | line column hgap hcomment hseparator => rfl
  | done count => cases count <;> rfl

theorem plainGap_colon (rest : List Char) : plainGap (':' :: rest) = ⟨[], false, 0, ':' :: rest⟩ :=
  plainGap_spaces 0 (by decide) rest

theorem Turns.startsGap {text body : List Char} {column : Nat} (h : Turns text column body) :
    startsGap text = true := by
  cases h with
  | line column hgap hcomment hseparator => rfl
  | done count => cases count <;> rfl

/-- The colon behind a key ends it. -/
theorem stops_colon (indent : Int) (rest : List Char) : Stops indent (':' :: rest) := by
  rw [Stops, plainGap_colon]
  rfl

/-! ## Words and spaces -/

theorem endsWord_cons (c : Char) (rest : List Char) :
    endsWord false (c :: rest) = (isGap c || (c == ':' && startsGap rest)) := by
  simp [endsWord]

theorem plainWord_append {word rest : List Char} (hword : ∀ c ∈ word, isGap c = false)
    (hcolon : ∀ front back, word = front ++ ':' :: back → startsGap (back ++ rest) = false)
    (hend : endsWord false rest = true) : plainWord false (word ++ rest) = (word, rest) := by
  induction word with
  | nil =>
      cases rest with
      | nil => rfl
      | cons c rest => rw [List.nil_append, plainWord, if_pos hend]
  | cons c word ih =>
      have hc : endsWord false (c :: (word ++ rest)) = false := by
        rw [endsWord_cons, hword c List.mem_cons_self, Bool.false_or, Bool.and_eq_false_imp]
        intro heq
        cases beq_iff_eq.mp heq
        exact hcolon [] word rfl
      have hrest := ih (fun d hd => hword d (List.mem_cons_of_mem c hd))
        fun front back heq => hcolon (c :: front) back (congrArg (c :: ·) heq)
      rw [List.cons_append, plainWord, hc, if_neg Bool.false_ne_true, hrest]

/-- A text within a line that a plain scalar can hold. -/
@[mk_iff]
structure PlainText (text : List Char) : Prop where
  gaps : ∀ c ∈ text, isGap c = true → c = ' '
  ne_nil : text ≠ []
  head : text.head? ≠ some ' '
  last : text.getLast? ≠ some ' '
  colon : ¬[':', ' '] <:+: text
  comment : ¬[' ', '#'] <:+: text

-- The members of the text are checked one by one, not all characters there are.
instance : DecidablePred PlainText := fun text =>
  have : Decidable (∀ c ∈ text, isGap c = true → c = ' ') := List.decidableBAll _ text
  decidable_of_iff' _ (plainText_iff text)

namespace PlainText

variable {text : List Char}

theorem suffix (h : PlainText text) {more : List Char} (hmore : more <:+ text)
    (hnil : more ≠ []) (hhead : more.head? ≠ some ' ') : PlainText more where
  gaps c hc := h.gaps c (hmore.subset hc)
  ne_nil := hnil
  head := hhead
  last := by
    obtain ⟨before, rfl⟩ := hmore
    have hlast := h.last
    rwa [List.getLast?_append_of_ne_nil _ hnil] at hlast
  colon hwithin := h.colon (hwithin.trans hmore.isInfix)
  comment hwithin := h.comment (hwithin.trans hmore.isInfix)

/-- A single word, or a word, spaces and more. -/
theorem words (h : PlainText text) : (∀ c ∈ text, isGap c = false) ∨
    ∃ (word : List Char) (count : Nat) (more : List Char),
      text = word ++ (List.replicate (count + 1) ' ' ++ more) ∧
        (∀ c ∈ word, isGap c = false) ∧ PlainText more := by
  obtain ⟨word, rest, htext, hword, hrest⟩ := exists_word h.gaps
  rcases hrest with rfl | ⟨rest, rfl⟩
  · rw [List.append_nil] at htext
    exact .inl (htext ▸ hword)
  · obtain ⟨count, more, rfl, hhead⟩ := exists_spaces rest
    have hspaces : ' ' :: (List.replicate count ' ' ++ more) =
        List.replicate (count + 1) ' ' ++ more := rfl
    rw [hspaces] at htext
    have hnil : more ≠ [] := by
      rintro rfl
      refine h.last ?_
      rw [htext, List.append_nil, List.replicate_succ', ← List.append_assoc, List.getLast?_concat]
    have hsuffix : more <:+ text :=
      ⟨word ++ List.replicate (count + 1) ' ', by rw [htext, List.append_assoc]⟩
    exact .inr ⟨word, count, more, htext, hword, h.suffix hsuffix hnil hhead⟩

theorem isGap_head (h : PlainText text) : ∀ c ∈ text.head?, isGap c = false := by
  intro c hc
  by_contra hgap
  rw [Bool.not_eq_false] at hgap
  exact h.head (h.gaps c (List.mem_of_mem_head? hc) hgap ▸ hc)

/-- No word ends where the text begins. -/
theorem endsWord (h : PlainText text) {rest : List Char}
    (hcolon : text.getLast? = some ':' → startsGap rest = false) :
    endsWord false (text ++ rest) = false := by
  obtain ⟨c, more, rfl⟩ := List.exists_cons_of_ne_nil h.ne_nil
  rw [List.cons_append, endsWord_cons, h.isGap_head c rfl, Bool.false_or, Bool.and_eq_false_imp]
  intro heq
  cases beq_iff_eq.mp heq
  cases more with
  | nil => exact hcolon rfl
  | cons d more =>
      by_contra hgap
      rw [Bool.not_eq_false] at hgap
      have hd : d = ' ' := h.gaps d (by simp) hgap
      exact h.colon ⟨[], more, by rw [hd]; rfl⟩

end PlainText

theorem plainScalar_eq {text rest : List Char} (h : PlainText text)
    (hcolon : text.getLast? = some ':' → startsGap rest = false)
    (hend : endsWord false rest = true) {indent : Int} (hstop : Stops indent rest) :
    plainScalar false indent (text ++ rest) =
      ⟨text, (plainGap rest).crossed, (plainGap rest).rest⟩ := by
  induction hlength : text.length using Nat.strong_induction_on generalizing text with
  | _ length ih =>
      rcases h.words with hword | ⟨word, count, more, rfl, hword, hmore⟩
      · have hread := plainWord_append hword (fun front back heq => ?_) hend
        · rw [plainScalar, hread]
          exact if_pos hstop
        · cases back with
          | nil => exact hcolon (heq ▸ List.getLast?_concat)
          | cons d back => exact hword d (heq ▸ by simp)
      · have hlast : more.getLast? = some ':' → startsGap rest = false := by
          rwa [List.getLast?_append_of_ne_nil _ (by simp),
            List.getLast?_append_of_ne_nil _ hmore.ne_nil] at hcolon
        have hread : plainWord false (word ++ (List.replicate (count + 1) ' ' ++ (more ++ rest))) =
            (word, List.replicate (count + 1) ' ' ++ (more ++ rest)) := by
          refine plainWord_append hword (fun front back heq => ?_) rfl
          cases back with
          | nil =>
              refine (h.colon ⟨front, List.replicate count ' ' ++ more, ?_⟩).elim
              rw [heq, List.replicate_succ]
              simp
          | cons d back => exact hword d (heq ▸ by simp)
        have hgap : plainGap (List.replicate (count + 1) ' ' ++ (more ++ rest)) =
            ⟨List.replicate (count + 1) ' ', false, 0, more ++ rest⟩ := by
          obtain ⟨c, more, rfl⟩ := List.exists_cons_of_ne_nil hmore.ne_nil
          exact plainGap_spaces (count + 1) (hmore.isGap_head c rfl) (more ++ rest)
        have hhash : (more ++ rest).head? ≠ some '#' := by
          obtain ⟨c, more, rfl⟩ := List.exists_cons_of_ne_nil hmore.ne_nil
          rintro ⟨⟩
          refine h.comment ⟨word ++ List.replicate count ' ', more, ?_⟩
          rw [List.replicate_succ']
          simp
        -- So the scalar goes on behind the spaces.
        have hmoreRead := ih more.length (by subst hlength; simp; omega) hmore hlast rfl
        have hshorter : (more ++ rest).length <
            (word ++ (List.replicate (count + 1) ' ' ++ (more ++ rest))).length := by
          simp
          omega
        rw [List.append_assoc, List.append_assoc, plainScalar, hread, hgap]
        dsimp only
        rw [beq_false_of_ne hhash, hmore.endsWord hlast, if_neg (by simp), dif_pos hshorter,
          hmoreRead, List.append_assoc]

end LayeredConfig.Yaml
