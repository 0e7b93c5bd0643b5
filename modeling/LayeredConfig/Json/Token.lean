import LayeredConfig.Number.Decimal
import LayeredConfig.Text.Classes

/-!
# JSON tokens

The lexical structure of JSON. A text is cut into tokens from left to right; what fits no token
becomes a last, invalid one, so that a reader can tell which fault comes first.
-/

namespace LayeredConfig.Json

inductive Token
  | openBrace
  | closeBrace
  | openBracket
  | closeBracket
  | colon
  | comma
  | null
  | bool (value : Bool)
  | int (value : Int)
  | fraction (value : Decimal)
  | string (value : String)
  | invalid
  deriving DecidableEq, Repr, Inhabited

namespace Token

open Text

/-- White space between tokens. -/
def isSpace (c : Char) : Bool := c == ' ' || c == '\t' || c == '\n' || c == '\r'

/-! ## Strings -/

def hexCode? : List Char → Option (Nat × List Char)
  | a :: b :: c :: d :: rest =>
    if [a, b, c, d].all fun h => (hexValue? h).isSome then
      some (valueInBase 16 [a, b, c, d], rest)
    else none
  | _ => none

/-- A code unit, together with the second one of a pair if there is one. -/
def codePoint (code : Nat) (rest : List Char) : Char × List Char :=
  match rest with
  | '\\' :: 'u' :: more =>
    match hexCode? more with
    | some (low, after) =>
      if 0xD800 ≤ code ∧ code < 0xDC00 ∧ 0xDC00 ≤ low ∧ low < 0xE000 then
        (Char.ofNat (0x10000 + (code - 0xD800) * 0x400 + (low - 0xDC00)), after)
      else ((charOfCode? code).getD '\uFFFD', rest)
    | none => ((charOfCode? code).getD '\uFFFD', rest)
  | _ => ((charOfCode? code).getD '\uFFFD', rest)

/-- The character that an escape stands for, read behind its backslash. -/
def escape? : List Char → Option (Char × List Char)
  | '"' :: rest => some ('"', rest)
  | '\\' :: rest => some ('\\', rest)
  | '/' :: rest => some ('/', rest)
  | 'b' :: rest => some ('\x08', rest)
  | 'f' :: rest => some ('\x0c', rest)
  | 'n' :: rest => some ('\n', rest)
  | 'r' :: rest => some ('\r', rest)
  | 't' :: rest => some ('\t', rest)
  | 'u' :: rest => (hexCode? rest).map fun (code, after) => codePoint code after
  | _ => none

theorem hexCode?_length {text rest : List Char} {code : Nat}
    (h : hexCode? text = some (code, rest)) :
    rest.length < text.length := by
  unfold hexCode? at h
  split at h
  · split at h
    · simp only [Option.some.injEq, Prod.mk.injEq] at h
      obtain ⟨_, rfl⟩ := h
      simp only [List.length_cons]
      omega
    · simp at h
  · simp at h

theorem codePoint_length (code : Nat) (rest : List Char) :
    (codePoint code rest).2.length ≤ rest.length := by
  unfold codePoint
  split
  · next more =>
    split
    · next low after hlow =>
      have := hexCode?_length hlow
      split <;> simp only [List.length_cons] <;> omega
    · simp
  · simp

theorem escape?_length {text rest : List Char} {c : Char} (h : escape? text = some (c, rest)) :
    rest.length < text.length := by
  unfold escape? at h
  split at h
  case h_9 more =>
    obtain ⟨⟨code, after⟩, hcode, heq⟩ := Option.map_eq_some_iff.mp h
    have hshort := hexCode?_length hcode
    have hpoint := codePoint_length code after
    simp only at heq
    rw [heq] at hpoint
    simp only at hpoint
    simp only [List.length_cons]
    omega
  case h_10 => simp at h
  all_goals
    simp only [Option.some.injEq, Prod.mk.injEq] at h
    obtain ⟨_, rfl⟩ := h
    simp

/-- The characters of a string up to its closing quote, and what follows. -/
def stringBody? (text : List Char) : Option (List Char × List Char) :=
  match text with
  | [] => none
  | '"' :: rest => some ([], rest)
  | '\\' :: rest =>
    match _h : escape? rest with
    | none => none
    | some (c, after) => (stringBody? after).map fun (body, left) => (c :: body, left)
  | c :: rest =>
    if c < ' ' then none else (stringBody? rest).map fun (body, left) => (c :: body, left)
termination_by text.length
decreasing_by
  · have := escape?_length _h
    simp only [List.length_cons]
    omega
  · simp

/-! ## Numbers -/

/-- The digits of a whole number: a zero alone, or digits without a leading zero. -/
def wholeDigits (text : List Char) : List Char :=
  match text with
  | '0' :: _ => ['0']
  | _ => text.takeWhile isAsciiDigit

/-- A point with the digits behind it; without digits there is no fraction. -/
def fractionPart (text : List Char) : List Char :=
  match text with
  | '.' :: rest =>
    let digits := rest.takeWhile isAsciiDigit
    if digits.isEmpty then [] else '.' :: digits
  | _ => []

/-- An exponent mark with its sign and digits; without digits there is no exponent. -/
def exponentPart (text : List Char) : List Char :=
  match text with
  | mark :: rest =>
    if mark == 'e' || mark == 'E' then
      let sign := rest.takeWhile fun c => c == '+' || c == '-'
      let digits := (rest.drop sign.length).takeWhile isAsciiDigit
      if sign.length ≤ 1 && !digits.isEmpty then mark :: sign ++ digits else []
    else []
  | [] => []

/-- A number with the characters it takes up. -/
def number (text : List Char) : Token × List Char :=
  let sign := if text.head? == some '-' then ['-'] else []
  let whole := wholeDigits (text.drop sign.length)
  if whole.isEmpty then (invalid, sign)
  else
    let fraction := fractionPart (text.drop (sign.length + whole.length))
    let exponent := exponentPart (text.drop (sign.length + whole.length + fraction.length))
    let written := sign ++ whole ++ fraction ++ exponent
    if fraction.isEmpty && exponent.isEmpty then
      (int (if sign.isEmpty then digitsValue whole else -(digitsValue whole : Int)), written)
    else
      match Decimal.ofChars? written with
      | some value => (.fraction value, written)
      | none => (invalid, written)

/-! ## Texts -/

/-- Words that stand for values. -/
def words : List (String × Token) :=
  [("null", null), ("true", bool true), ("false", bool false),
   ("NaN", fraction (.nan false false 0)), ("Infinity", fraction (.infinite false)),
   ("-Infinity", fraction (.infinite true))]

def punctuation? : Char → Option Token
  | '\x7b' => some openBrace
  | '\x7d' => some closeBrace
  | '[' => some openBracket
  | ']' => some closeBracket
  | ':' => some colon
  | ',' => some comma
  | _ => none

/-- The first token of a text that starts with the given character, and what follows it. -/
def next (c : Char) (rest : List Char) : Token × List Char :=
  match punctuation? c with
  | some token => (token, rest)
  | none =>
    if c == '"' then
      match stringBody? rest with
      | some (body, after) => (string (String.ofList body), after)
      | none => (invalid, rest)
    else
      match words.find? fun word => word.1.toList.isPrefixOf (c :: rest) with
      | some (word, token) => (token, rest.drop (word.length - 1))
      | none =>
        let (token, written) := number (c :: rest)
        (token, rest.drop (written.length - 1))

theorem stringBody?_length {text body rest : List Char} (h : stringBody? text = some (body, rest)) :
    rest.length < text.length := by
  fun_induction stringBody? text generalizing body rest with
  | case1 => simp at h
  | case2 more =>
    simp only [Option.some.injEq, Prod.mk.injEq] at h
    obtain ⟨_, rfl⟩ := h
    simp
  | case3 => simp at h
  | case4 more c after hescape ih =>
    obtain ⟨⟨b, r⟩, hbody, heq⟩ := Option.map_eq_some_iff.mp h
    simp only [Prod.mk.injEq] at heq
    obtain ⟨_, rfl⟩ := heq
    have := ih hbody
    have := escape?_length hescape
    simp only [List.length_cons]
    omega
  | case5 => simp at h
  | case6 c more _ _ _ ih =>
    obtain ⟨⟨b, r⟩, hbody, heq⟩ := Option.map_eq_some_iff.mp h
    simp only [Prod.mk.injEq] at heq
    obtain ⟨_, rfl⟩ := heq
    have := ih hbody
    simp only [List.length_cons]
    omega

theorem next_length (c : Char) (rest : List Char) : (next c rest).2.length ≤ rest.length := by
  unfold next
  split
  · simp
  · split
    · split
      · next body after h => exact Nat.le_of_lt (stringBody?_length h)
      · simp
    · split <;> simp

/-- The tokens of a text up to the first fault. -/
def ofChars (text : List Char) : List Token :=
  match _h : text.dropWhile isSpace with
  | [] => []
  | c :: rest =>
    match next c rest with
    | (invalid, _) => [invalid]
    | (token, _) => token :: ofChars (next c rest).2
termination_by text.length
decreasing_by
  have hdrop : (text.dropWhile isSpace).length ≤ text.length := (List.dropWhile_suffix _).length_le
  have := next_length c rest
  rw [_h] at hdrop
  simp only [List.length_cons] at hdrop
  omega

end Token

end LayeredConfig.Json
