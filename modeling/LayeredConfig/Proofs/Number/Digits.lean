import LayeredConfig.Text.Classes

/-! # Digits

A number written in the digits from zero to nine reads back as itself, and does not start with a
zero unless it is zero. The numbers of control characters are written in hexadecimal digits. -/

namespace LayeredConfig.Text

theorem isAsciiDigit_eq_isDigit (c : Char) : isAsciiDigit c = c.isDigit := by
  rw [isAsciiDigit, Char.isDigit]
  rfl

/-- What holds of the ten digits holds of every digit. -/
theorem of_isAsciiDigit {P : Char → Prop} (h : ∀ i < 10, P (Char.ofNat (48 + i))) {c : Char}
    (hc : isAsciiDigit c = true) : P c := by
  rw [isAsciiDigit_eq_isDigit, Char.isDigit_iff_toNat] at hc
  have hlow : 48 ≤ c.toNat := hc.1
  have hhigh : c.toNat ≤ 57 := hc.2
  have hdigit := h (c.toNat - 48) (by omega)
  rwa [Nat.add_sub_cancel' hlow, Char.ofNat_toNat] at hdigit

theorem digitValue?_of_isAsciiDigit {c : Char} (h : isAsciiDigit c = true) :
    digitValue? c = some (c.toNat - '0'.toNat) := by
  rw [isAsciiDigit_eq_isDigit, Char.isDigit_iff_toNat] at h
  obtain ⟨hlow, hhigh⟩ := h
  have hbelow : c.toNat < 0x30 + 10 := Nat.lt_succ_of_le hhigh
  rw [digitValue?, decimalZeros, List.findSome?_cons, if_pos]
  · rfl
  · exact Bool.and_eq_true_iff.mpr ⟨decide_eq_true hlow, decide_eq_true hbelow⟩

theorem isDecimalDigit_of_isAsciiDigit {c : Char} (h : isAsciiDigit c = true) :
    isDecimalDigit c = true := by
  rw [isDecimalDigit, digitValue?_of_isAsciiDigit h]
  rfl

/-- A row of digits from zero to nine. -/
def Digits (text : List Char) : Prop := ∀ c ∈ text, isAsciiDigit c = true

theorem Digits.append {text other : List Char} (htext : Digits text) (hother : Digits other) :
    Digits (text ++ other) :=
  List.forall_mem_append.mpr ⟨htext, hother⟩

theorem Digits.isDecimalDigit {text : List Char} (h : Digits text) :
    ∀ c ∈ text, isDecimalDigit c = true :=
  fun c hc => isDecimalDigit_of_isAsciiDigit (h c hc)

theorem digits_replicate_zero (count : Nat) : Digits (List.replicate count '0') := by
  intro c hc
  rw [(List.mem_replicate.mp hc).2]
  rfl

theorem digits_toDigits (n : Nat) : Digits (Nat.toDigits 10 n) := by
  intro c hc
  rw [isAsciiDigit_eq_isDigit]
  exact Nat.isDigit_of_mem_toDigits (by decide) (by decide) hc

theorem Digits.digitsValue_eq {text : List Char} (h : Digits text) :
    digitsValue text = Nat.ofDigitChars 10 text 0 := by
  suffices ∀ value, text.foldl (fun value c => 10 * value + (digitValue? c).getD 0) value =
      Nat.ofDigitChars 10 text value from this 0
  induction text with
  | nil => exact fun _ => rfl
  | cons c rest ih =>
      intro value
      rw [List.foldl_cons, Nat.ofDigitChars_cons,
        digitValue?_of_isAsciiDigit (h c List.mem_cons_self)]
      exact ih (fun d hd => h d (List.mem_cons_of_mem c hd)) _

theorem digitsValue_toDigits (n : Nat) : digitsValue (Nat.toDigits 10 n) = n := by
  rw [(digits_toDigits n).digitsValue_eq, Nat.ofDigitChars_ten_toDigits]

/-- Zeros in front of a number do not count. -/
theorem digitsValue_zeros_append (count : Nat) {text : List Char} (h : Digits text) :
    digitsValue (List.replicate count '0' ++ text) = digitsValue text := by
  rw [((digits_replicate_zero count).append h).digitsValue_eq, h.digitsValue_eq,
    Nat.ofDigitChars_append, Nat.ofDigitChars_replicate_zero, Nat.mul_zero]

theorem head?_toDigits_ne_zero {n : Nat} (h : 0 < n) : (Nat.toDigits 10 n).head? ≠ some '0' := by
  induction n using Nat.strongRecOn with
  | ind n ih =>
      rw [Nat.toDigits_eq_if (by decide)]
      split
      · next hsmall =>
        intro hzero
        have hvalue := congrArg Char.toNat (Option.some.inj hzero)
        rw [Nat.toNat_digitChar_of_lt_ten hsmall] at hvalue
        have : 48 + n = 48 := hvalue
        omega
      · have hfirst := ih (n / 10) (by omega) (by omega)
        cases hdigits : Nat.toDigits 10 (n / 10) with
        | nil => exact (Nat.toDigits_ne_nil hdigits).elim
        | cons c rest => rwa [hdigits] at hfirst

/-- The number of a control character has four hexadecimal digits. -/
theorem digitsInBase_control : ∀ code < 0x20, (digitsInBase 16 4 code).length = 4 ∧
    ((digitsInBase 16 4 code).all fun h => (hexValue? h).isSome) = true ∧
    valueInBase 16 (digitsInBase 16 4 code) = code := by
  decide

end LayeredConfig.Text
