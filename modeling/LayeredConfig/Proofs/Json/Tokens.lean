import LayeredConfig.Json.Token
import LayeredConfig.Proofs.Number.Numeral
import LayeredConfig.Scalar
import LayeredConfig.Text.Quoted

/-! # The tokens of written JSON

A word, a string in quotes and a numeral are each read as one token, and reading goes on behind it.
For a numeral, what follows has to end it. -/

namespace LayeredConfig.Json.Token

open Text

/-! ## One token -/

theorem ofChars_spaces_append {blanks : List Char} (h : ∀ c ∈ blanks, isSpace c = true)
    (rest : List Char) : ofChars (blanks ++ rest) = ofChars rest := by
  rw [ofChars, ofChars, List.dropWhile_append_of_pos h]

theorem ofChars_cons {c : Char} {rest after : List Char} {token : Token} (hc : isSpace c = false)
    (hnext : next c rest = (token, after)) (htoken : token ≠ invalid) :
    ofChars (c :: rest) = token :: ofChars after := by
  rw [ofChars, List.dropWhile_cons_of_neg (by simp [hc])]
  dsimp only
  rw [hnext]
  cases token with
  | invalid => exact (htoken rfl).elim
  | _ => rfl

theorem ofChars_punctuation {c : Char} {token : Token} (h : punctuation? c = some token)
    (rest : List Char) : ofChars (c :: rest) = token :: ofChars rest := by
  have hnext : next c rest = (token, rest) := by rw [next, h]
  unfold punctuation? at h
  split at h
  all_goals cases h
  all_goals exact ofChars_cons (by decide) hnext (by decide)

theorem hexCode?_of_lt {code : Nat} (h : code < 0x20) (rest : List Char) :
    hexCode? (digitsInBase 16 4 code ++ rest) = some (code, rest) := by
  obtain ⟨hlength, hall, hvalue⟩ := digitsInBase_control code h
  match hfour : digitsInBase 16 4 code, hlength with
  | [a, b, c, d], _ =>
      rw [hfour] at hall hvalue
      simp only [List.cons_append, List.nil_append, hexCode?]
      rw [if_pos hall, hvalue]

/-- Only the first half of a pair takes part of what follows it. -/
theorem codePoint_of_lt {code : Nat} (h : code < 0xD800) (rest : List Char) :
    codePoint code rest = ((charOfCode? code).getD '\uFFFD', rest) := by
  unfold codePoint
  split
  · split
    · exact if_neg fun hpair => absurd hpair.1 (Nat.not_le.mpr h)
    · rfl
  · rfl

theorem escape?_of_lt {c : Char} (h : c.toNat < 0x20) (rest : List Char) :
    escape? ('u' :: digitsInBase 16 4 c.toNat ++ rest) = some (c, rest) := by
  have hvalid : c.toNat.isValidChar := c.valid
  rw [List.cons_append, escape?, hexCode?_of_lt h, Option.map_some]
  dsimp only
  rw [codePoint_of_lt (by omega), charOfCode?, dif_pos hvalid]
  rfl

/-- A written character is read back, and reading goes on behind it. -/
theorem stringBody?_jsonEscaped (c : Char) (rest : List Char) :
    stringBody? (jsonEscaped c ++ rest) =
      (stringBody? rest).map fun (body, left) => (c :: body, left) := by
  have hescape : ∀ {text after : List Char}, escape? text = some (c, after) →
      stringBody? ('\\' :: text) =
        (stringBody? after).map fun (body, left) => (c :: body, left) := by
    intro text after h
    rw [stringBody?]
    split
    · next hnone => exact (Option.some_ne_none _ (h.symm.trans hnone)).elim
    · next hsome =>
      obtain ⟨rfl, rfl⟩ := Prod.mk.inj (Option.some.inj (h.symm.trans hsome))
      rfl
  unfold jsonEscaped
  -- Seven characters have an escape of two characters.
  iterate 7
    split
    · next hc =>
      obtain rfl := beq_iff_eq.mp hc
      exact hescape rfl
  split
  · next hcontrol => exact hescape (escape?_of_lt hcontrol rest)
  · next hquote hbackslash _ _ _ _ _ hcontrol =>
    have hprinted : ¬c < ' ' := hcontrol
    rw [List.cons_append, List.nil_append, stringBody?.eq_4 c rest, if_neg hprinted]
    · rintro rfl
      exact hquote rfl
    · rintro rfl
      exact hbackslash rfl

theorem stringBody?_flatMap (text rest : List Char) :
    stringBody? (text.flatMap jsonEscaped ++ '"' :: rest) = some (text, rest) := by
  induction text with
  | nil => rw [List.flatMap_nil, List.nil_append, stringBody?]
  | cons c text ih =>
      rw [List.flatMap_cons, List.append_assoc, stringBody?_jsonEscaped, ih, Option.map_some]

theorem next_of_stringBody? {rest body after : List Char}
    (h : stringBody? rest = some (body, after)) :
    next '"' rest = (string (String.ofList body), after) := by
  simp [next, punctuation?, h]

theorem ofChars_jsonQuoted (text : String) (rest : List Char) :
    ofChars ((jsonQuoted text).toList ++ rest) = string text :: ofChars rest := by
  have hchars : (jsonQuoted text).toList ++ rest =
      '"' :: (text.toList.flatMap jsonEscaped ++ '"' :: rest) := by
    simp [jsonQuoted]
  rw [hchars]
  refine ofChars_cons rfl ?_ Token.noConfusion
  have hnext := next_of_stringBody? (stringBody?_flatMap text.toList rest)
  rwa [String.ofList_toList] at hnext

/-! ## Numerals -/

/-- What may follow a written value: the end of the text, a comma or a line break. -/
def EndsValue (rest : List Char) : Prop := ∀ c ∈ rest.head?, c = ',' ∨ c = '\n'

end LayeredConfig.Json.Token
