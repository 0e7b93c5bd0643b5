import LayeredConfig.Yaml.Position
import Mathlib

/-! # Where a text leads

Positions behind a part of a text. Within a line every character takes up one column, and behind a
line break only what follows it counts. -/

namespace LayeredConfig.Yaml

/-! ## Characters within a line -/

/-- A character that takes up a column of a line and is not white space but for a space. -/
def isInline (c : Char) : Bool := !isBreak c && c != '\t' && c != '\uFEFF'

theorem isInline_space : isInline ' ' = true := by decide

theorem isInline_iff {c : Char} :
    isInline c = true ↔ isBreak c = false ∧ c ≠ '\t' ∧ c ≠ '\uFEFF' := by
  simp [isInline, and_assoc]

theorem isGap_eq_false_iff {c : Char} :
    isGap c = false ↔ c ≠ ' ' ∧ c ≠ '\t' ∧ isBreak c = false := by
  simp [isGap, and_assoc]

theorem takeBreak?_cons {c : Char} (h : isBreak c = false) (rest : List Char) :
    takeBreak? (c :: rest) = none := by
  simp only [isBreak, Bool.or_eq_false_iff, beq_eq_false_iff_ne] at h
  obtain ⟨⟨⟨⟨hfeed, hreturn⟩, hnext⟩, hline⟩, hparagraph⟩ := h
  unfold takeBreak?
  split
  · next heq => exact (hreturn (List.cons.inj heq).1).elim
  · next heq =>
    obtain ⟨rfl, rfl⟩ := List.cons.inj heq
    simp [hfeed, hreturn, hnext, hline, hparagraph]
  · rfl

theorem takeBreak?_lineFeed (rest : List Char) : takeBreak? ('\n' :: rest) = some ('\n', rest) := by
  rw [takeBreak?]
  · rfl
  · simp

namespace Position

variable (p : Position)

/-! ## Positions behind a part of a text -/

theorem after_nil (count : Nat) : p.after count [] = p := by
  cases count <;> rfl

theorem after_add (m n : Nat) (text : List Char) :
    p.after (m + n) text = (p.after m text).after n (text.drop m) := by
  induction m generalizing p text with
  | zero => rw [Nat.zero_add, List.drop_zero]; rfl
  | succ m ih =>
      cases text with
      | nil => rw [after_nil, after_nil, List.drop_nil, after_nil]
      | cons c rest => rw [Nat.add_right_comm, after, after, ih, List.drop_succ_cons]

theorem behind_append (first rest : List Char) :
    p.behind (first ++ rest) rest = p.after first.length (first ++ rest) := by
  rw [behind, List.length_append, Nat.add_sub_cancel]

theorem behind_append_append (first second rest : List Char) :
    p.behind (first ++ (second ++ rest)) rest =
      (p.behind (first ++ (second ++ rest)) (second ++ rest)).behind (second ++ rest) rest := by
  have hwhole := p.behind_append (first ++ second) rest
  rw [List.append_assoc, List.length_append] at hwhole
  rw [hwhole, behind_append, behind_append, after_add, List.drop_left]

theorem index_step (c : Char) (next : Option Char) : (p.step c next).index = p.index + 1 := by
  rw [step]
  split_ifs <;> rfl

theorem index_behind (first rest : List Char) :
    (p.behind (first ++ rest) rest).index = p.index + first.length := by
  rw [behind_append]
  induction first generalizing p with
  | nil => rfl
  | cons c first ih =>
      rw [List.cons_append, List.length_cons, after, ih, index_step, Nat.add_right_comm,
        Nat.add_assoc]

/-- Within a line a column is as good as an index. -/
theorem behind_inline {first : List Char} (h : ∀ c ∈ first, isInline c = true)
    (rest : List Char) :
    p.behind (first ++ rest) rest =
      ⟨p.line, p.column + first.length, p.index + first.length⟩ := by
  rw [behind_append]
  induction first generalizing p with
  | nil => rfl
  | cons c first ih =>
      have hc : isInline c = true := h c List.mem_cons_self
      have hstep : p.step c (first ++ rest).head? = ⟨p.line, p.column + 1, p.index + 1⟩ := by
        obtain ⟨hbreak, -, hmark⟩ := isInline_iff.mp hc
        rw [step, hbreak, Bool.false_and, if_neg Bool.false_ne_true, beq_false_of_ne hmark,
          if_neg Bool.false_ne_true]
      rw [List.cons_append, List.length_cons, after, hstep,
        ih _ fun other hother => h other (List.mem_cons_of_mem c hother)]
      simp only [mk.injEq, true_and]
      omega

/-- A line counts its columns from its own beginning. -/
theorem column_behind_line (before : List Char) (width : Nat) (rest : List Char) :
    (p.behind (before ++ ('\n' :: (List.replicate width ' ' ++ rest))) rest).column = width := by
  have hspaces : ∀ c ∈ List.replicate width ' ', isInline c = true := fun c hc =>
    List.eq_of_mem_replicate hc ▸ isInline_space
  have hbefore := p.behind_append_append before ('\n' :: List.replicate width ' ') rest
  rw [List.cons_append] at hbefore
  have hline (q : Position) (text : List Char) : (q.behind ('\n' :: text) text).column = 0 := by
    rw [← List.singleton_append, behind_append]
    rfl
  have hbreak := (p.behind (before ++ ('\n' :: (List.replicate width ' ' ++ rest)))
    ('\n' :: (List.replicate width ' ' ++ rest))).behind_append_append ['\n']
      (List.replicate width ' ') rest
  rw [List.singleton_append] at hbreak
  rw [hbefore, hbreak, behind_inline _ hspaces, hline, List.length_replicate, Nat.zero_add]

end Position

end LayeredConfig.Yaml
