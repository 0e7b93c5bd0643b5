import LayeredConfig.Commented.Chunks
import LayeredConfig.Proofs.Number.Digits
import LayeredConfig.Text.Quoted
import Mathlib

/-! # Texts cut into lines

A text that is written with escapes is cut into lines at places where no backslash is separated
from what it escapes. So each line holds the escapes of a part of the text, unless the cut falls
between the digits of an escape. -/

namespace LayeredConfig.Commented

open Text

/-! ## Single cuts -/

theorem cutLines_ne_nil (width : Nat) (text : List Char) : cutLines width text ≠ [] := by
  rw [cutLines]
  split <;> exact List.cons_ne_nil _ _

theorem eq_of_cutLines {width : Nat} {text line : List Char} (h : cutLines width text = [line]) :
    line = text := by
  rw [cutLines] at h
  split at h
  · exact (List.cons.inj h).1.symm
  · exact (cutLines_ne_nil _ _ (List.cons.inj h).2).elim

theorem endingBackslashes_concat {c : Char} (hc : c ≠ '\\') (text : List Char) :
    endingBackslashes (text ++ [c]) = 0 := by
  simp [endingBackslashes, hc]

theorem endingBackslashes_backslash (text : List Char) :
    endingBackslashes (text ++ ['\\']) = endingBackslashes text + 1 := by
  simp [endingBackslashes]

/-- An even number of backslashes escapes nothing of what follows. -/
theorem endingBackslashes_append {front : List Char} (hfront : endingBackslashes front % 2 = 0)
    (back : List Char) :
    endingBackslashes (front ++ back) % 2 = endingBackslashes back % 2 := by
  induction back using List.reverseRecOn with
  | nil => simpa [endingBackslashes] using hfront
  | append_singleton back c ih =>
      rw [← List.append_assoc]
      by_cases hc : c = '\\'
      · rw [hc, endingBackslashes_backslash, endingBackslashes_backslash]
        omega
      · rw [endingBackslashes_concat hc, endingBackslashes_concat hc]

/-- Behind an odd number of backslashes there is an even one a character earlier. -/
theorem even_take_of_odd {text : List Char} {place : Nat} (hplace : place < text.length)
    (hodd : endingBackslashes (text.take (place + 1)) % 2 = 1) :
    endingBackslashes (text.take place) % 2 = 0 := by
  rw [List.take_add_one, List.getElem?_eq_getElem hplace, Option.toList_some] at hodd
  by_cases hc : text[place] = '\\'
  · rw [hc, endingBackslashes_backslash] at hodd
    omega
  · rw [endingBackslashes_concat hc] at hodd
    omega

theorem even_backOff {text : List Char} {place : Nat} (hplace : 2 ≤ place)
    (hlength : place ≤ text.length) :
    endingBackslashes (text.take (backOff text place)) % 2 = 0 := by
  fun_induction backOff text place with
  | case1 => omega
  | case2 => omega
  | case3 place hodd ih =>
      have heven := even_take_of_odd (by omega) (beq_iff_eq.mp hodd)
      cases place with
      | zero => exact heven
      | succ place => exact ih (by omega) (by omega)
  | case4 place heven =>
      rw [beq_iff_eq] at heven
      omega

/-- A cut into two lines of three characters or more separates no backslash from what it escapes. -/
theorem even_firstCut {width : Nat} {text : List Char} (hwidth : 3 ≤ width)
    (hcut : firstCut width text < text.length) :
    endingBackslashes (text.take (firstCut width text)) % 2 = 0 := by
  unfold firstCut at hcut ⊢
  split at hcut
  · omega
  · next hlong =>
    rw [if_neg hlong]
    dsimp only at hcut ⊢
    cases hspace : lastSpace? (max (width - 1) 1) text with
    | some place =>
        have hc : text[place]? = some ' ' := by
          simpa using List.find?_some hspace
        simp only
        rw [List.take_add_one, hc, Option.toList_some, endingBackslashes_concat (by decide)]
    | none => exact even_backOff (by omega) (by omega)

/-! ## Escapes -/

/-- A text with an escape for each character that needs one. -/
def escapes (text : List Char) : List Char := text.flatMap jsonEscaped

theorem escapes_append (first rest : List Char) :
    escapes (first ++ rest) = escapes first ++ escapes rest := List.flatMap_append

/-- A text that ends within the digits of an escape. -/
def EndsInEscape (text : List Char) : Prop :=
  ∃ count < 4, (text.take (text.length - count)).getLast? = some 'u' ∧
    endingBackslashes (text.take (text.length - count)).dropLast % 2 = 1

instance (text : List Char) : Decidable (EndsInEscape text) :=
  inferInstanceAs (Decidable (∃ count < 4, _))

theorem EndsInEscape.append {front back : List Char} (hfront : endingBackslashes front % 2 = 0)
    (h : EndsInEscape back) : EndsInEscape (front ++ back) := by
  obtain ⟨count, hcount, hlast, hodd⟩ := h
  have hne : back.take (back.length - count) ≠ [] := by
    intro hnil
    simp [hnil] at hlast
  have hle : count ≤ back.length := by
    by_contra hlt
    simp [Nat.sub_eq_zero_of_le (le_of_not_ge hlt)] at hne
  have htake : (front ++ back).take ((front ++ back).length - count) =
      front ++ back.take (back.length - count) := by
    rw [List.length_append, Nat.add_sub_assoc hle, List.take_length_add_append]
  refine ⟨count, hcount, ?_, ?_⟩
  · rw [htake, List.getLast?_append_of_ne_nil _ hne, hlast]
  · rw [htake, List.dropLast_append_of_ne_nil hne, endingBackslashes_append hfront, hodd]

/-- The three kinds of escapes. -/
theorem jsonEscaped_cases (c : Char) :
    (jsonEscaped c = [c] ∧ c ≠ '\\') ∨ (∃ d, jsonEscaped c = ['\\', d]) ∨
      ∃ digits, jsonEscaped c = '\\' :: 'u' :: digits ∧ digits.length = 4 ∧ '\\' ∉ digits := by
  unfold jsonEscaped
  iterate 7
    split
    · exact .inr (.inl ⟨_, rfl⟩)
  split
  · next hcontrol =>
    obtain ⟨hlength, hall, -⟩ := digitsInBase_control c.toNat hcontrol
    refine .inr (.inr ⟨_, rfl, hlength, fun hmem => ?_⟩)
    exact absurd (List.all_eq_true.mp hall '\\' hmem) (by decide)
  · next hbackslash _ _ _ _ _ _ => exact .inl ⟨rfl, by simpa using hbackslash⟩

theorem even_jsonEscaped (c : Char) : endingBackslashes (jsonEscaped c) % 2 = 0 := by
  rcases jsonEscaped_cases c with ⟨hc, hbackslash⟩ | ⟨d, hd⟩ | ⟨digits, hdigits, hlength, hnot⟩
  · rw [hc, ← List.nil_append [c], endingBackslashes_concat hbackslash]
  · by_cases hbackslash : d = '\\'
    · rw [hd, hbackslash]
      decide
    · rw [hd, ← List.singleton_append, endingBackslashes_concat hbackslash]
  · have hne : digits ≠ [] := by
      rintro rfl
      simp at hlength
    have hlast : digits.getLast hne ≠ '\\' := fun heq => hnot (heq ▸ List.getLast_mem hne)
    have hsplit : '\\' :: 'u' :: digits =
        ('\\' :: 'u' :: digits.dropLast) ++ [digits.getLast hne] := by
      simp [List.dropLast_concat_getLast]
    rw [hdigits, hsplit, endingBackslashes_concat hlast]

/-- A cut within an escape leaves a single backslash or some of the digits behind. -/
theorem endsInEscape_of_jsonEscaped {c : Char} {front back : List Char}
    (h : jsonEscaped c = front ++ back) (hfront : front ≠ []) (hback : back ≠ [])
    (heven : endingBackslashes front % 2 = 0) : EndsInEscape front := by
  have hlength : (jsonEscaped c).length = front.length + back.length := by
    rw [h, List.length_append]
  have hfrontLength := List.length_pos_iff.mpr hfront
  have hbackLength := List.length_pos_iff.mpr hback
  have hodd : front ≠ ['\\'] := by
    rintro rfl
    exact absurd heven (by decide)
  obtain ⟨first, more, rfl⟩ := List.exists_cons_of_ne_nil hfront
  rcases jsonEscaped_cases c with ⟨hc, -⟩ | ⟨d, hd⟩ | ⟨digits, hdigits, hdigitsLength, -⟩
  · rw [hc, List.length_singleton] at hlength
    omega
  · rw [hd] at h hlength
    obtain ⟨rfl, -⟩ := List.cons.inj h
    have hnil : more = [] := by
      apply List.length_eq_zero_iff.mp
      simp at hlength
      omega
    exact absurd (by rw [hnil]) hodd
  · rw [hdigits] at h
    obtain ⟨rfl, htail⟩ := List.cons.inj h
    have hne : more ≠ [] := fun hnil => hodd (by rw [hnil])
    obtain ⟨second, before, rfl⟩ := List.exists_cons_of_ne_nil hne
    obtain ⟨rfl, rfl⟩ := List.cons.inj htail
    have htake : ('\\' :: 'u' :: before).take (('\\' :: 'u' :: before).length - before.length) =
        ['\\', 'u'] := by
      have hcount : before.length + 1 + 1 - before.length = 2 := by omega
      simp [hcount]
    refine ⟨before.length, ?_, ?_⟩
    · rw [List.append_eq, List.length_append] at hdigitsLength
      omega
    · rw [htake]
      decide

/-- A place between the escapes is one between the characters of the text. -/
theorem exists_append_of_escapes {text front back : List Char} (h : escapes text = front ++ back)
    (heven : endingBackslashes front % 2 = 0) (hwhole : ¬EndsInEscape front) :
    ∃ first rest, text = first ++ rest ∧ front = escapes first ∧ back = escapes rest := by
  induction text generalizing front with
  | nil =>
      obtain ⟨rfl, rfl⟩ := List.append_eq_nil_iff.mp h.symm
      exact ⟨[], [], rfl, rfl, rfl⟩
  | cons c text ih =>
      rw [escapes, List.flatMap_cons, ← escapes] at h
      rcases List.append_eq_append_iff.mp h with ⟨more, rfl, hmore⟩ | ⟨more, hc, rfl⟩
      · rw [endingBackslashes_append (even_jsonEscaped c)] at heven
        have hwholeMore : ¬EndsInEscape more := fun hends =>
          hwhole (hends.append (even_jsonEscaped c))
        obtain ⟨first, rest, rfl, rfl, rfl⟩ := ih hmore heven hwholeMore
        exact ⟨c :: first, rest, rfl, rfl, rfl⟩
      · by_cases hfront : front = []
        · subst hfront
          exact ⟨[], c :: text, rfl, rfl, by rw [← List.nil_append more, ← hc]; rfl⟩
        · by_cases hmore : more = []
          · subst hmore
            rw [List.append_nil] at hc
            exact ⟨[c], text, rfl, by simp [escapes, hc], rfl⟩
          · exact absurd (endsInEscape_of_jsonEscaped hc hfront hmore heven) hwhole

/-! ## All lines -/

/-- Lines that go on behind a backslash, up to a quotation mark. -/
def continued (line : List Char) : List (List Char) → List (List Char)
  | [] => [line ++ ['"']]
  | next :: more => (line ++ ['\\']) :: continued next more

/-- The lines of an escaped text hold the escapes of its parts. -/
theorem exists_cutLines {width : Nat} (hwidth : 3 ≤ width) {mark : List Char}
    (hmark : mark = [] ∨ mark = ['"']) (text : List Char)
    (hwhole : ∀ line ∈ (cutLines width (mark ++ (escapes text ++ ['"']))).dropLast,
      ¬EndsInEscape line.dropLast) :
    ∃ (first : List Char) (rest : List (List Char)), text = first ++ rest.flatten ∧
      cutLines width (mark ++ (escapes text ++ ['"'])) =
        continued (mark ++ escapes first) (rest.map escapes) := by
  induction hlength : (mark ++ escapes text).length using Nat.strong_induction_on
    generalizing mark text with
  | _ length ih =>
      subst hlength
      have hmarkLength : mark.length ≤ 1 := by rcases hmark with rfl | rfl <;> simp
      have hmarkEven : endingBackslashes mark % 2 = 0 := by rcases hmark with rfl | rfl <;> decide
      rw [cutLines] at hwhole ⊢
      split at hwhole
      · next hshort =>
        rw [dif_pos hshort]
        exact ⟨text, [], by simp, by simp [continued]⟩
      · next hlong =>
        rw [dif_neg hlong]
        have hne : mark ++ (escapes text ++ ['"']) ≠ [] := by simp
        have hpos := @firstCut_pos width _ hne
        have heven := even_firstCut hwidth (not_le.mp hlong)
        generalize firstCut width (mark ++ (escapes text ++ ['"'])) = cut at *
        rw [List.length_append, List.length_append, List.length_singleton] at hlong
        have hsplit := List.take_append_drop (cut - mark.length) (escapes text)
        have htake : (mark ++ (escapes text ++ ['"'])).take cut =
            mark ++ (escapes text).take (cut - mark.length) := by
          rw [List.take_append, List.take_of_length_le (by omega),
            List.take_append_of_le_length (by omega)]
        have hdrop : (mark ++ (escapes text ++ ['"'])).drop cut =
            (escapes text).drop (cut - mark.length) ++ ['"'] := by
          rw [List.drop_append, List.drop_of_length_le (by omega), List.nil_append,
            List.drop_append_of_le_length (by omega)]
        have hbackLength : ((escapes text).drop (cut - mark.length)).length <
            (mark ++ escapes text).length := by
          rw [List.length_drop, List.length_append]
          omega
        rw [htake] at heven
        rw [htake, hdrop] at hwhole ⊢
        generalize (escapes text).take (cut - mark.length) = front at *
        generalize (escapes text).drop (cut - mark.length) = back at *
        rw [List.dropLast_cons_of_ne_nil (cutLines_ne_nil _ _), List.forall_mem_cons,
          List.dropLast_concat] at hwhole
        rw [endingBackslashes_append hmarkEven] at heven
        obtain ⟨first, rest, rfl, rfl, rfl⟩ := exists_append_of_escapes hsplit.symm heven
          fun hends => hwhole.1 (hends.append hmarkEven)
        obtain ⟨next, more, rfl, hlines⟩ := ih _ hbackLength (.inl rfl) rest hwhole.2 rfl
        rw [List.nil_append] at hlines
        exact ⟨first, next :: more, by simp, by rw [hlines]; simp [continued]⟩

end LayeredConfig.Commented
