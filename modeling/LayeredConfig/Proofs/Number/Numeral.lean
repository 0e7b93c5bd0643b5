import LayeredConfig.Number.Decimal
import LayeredConfig.Proofs.Number.Digits
import LayeredConfig.Proofs.Text.Lines

/-! # Numerals

A numeral is a number in digits from zero to nine: a sign, a whole part, digits behind a point and
an exponent. Every finite decimal number is written as a numeral from which it is read back with
its digits and its exponent. -/

namespace LayeredConfig

open Text

structure Numeral where
  negative : Bool
  whole : List Char
  /-- The digits behind the point; without digits there is no point. -/
  fraction : List Char := []
  exponent : Option Int := none
  whole_ne_nil : whole ≠ []
  whole_digits : Digits whole
  /-- A zero in front stands alone. -/
  whole_zero : whole.head? = some '0' → whole = ['0']
  fraction_digits : Digits fraction

namespace Numeral

/-- A point with digits behind it, if there are any. -/
def pointChars (fraction : List Char) : List Char := if fraction = [] then [] else '.' :: fraction

def exponentChars (exponent : Option Int) : List Char :=
  exponent.elim [] fun exponent => 'E' :: Decimal.exponentText exponent

/-- A numeral without its sign. -/
def body (n : Numeral) : List Char :=
  n.whole ++ (pointChars n.fraction ++ exponentChars n.exponent)

def chars (n : Numeral) : List Char := Decimal.signText n.negative ++ n.body

/-- The number that a numeral stands for, with the exponent of its last digit. -/
def value (n : Numeral) : Decimal :=
  .finite n.negative (digitsValue (n.whole ++ n.fraction)) (n.exponent.getD 0 - n.fraction.length)

/-- A numeral without a point and without an exponent. -/
def IsWhole (n : Numeral) : Prop := n.fraction = [] ∧ n.exponent = none

instance (n : Numeral) : Decidable n.IsWhole := inferInstanceAs (Decidable (_ ∧ _))

variable (n : Numeral)

/-! ## Characters -/

theorem exists_body_eq : ∃ c rest, n.body = c :: rest ∧ isAsciiDigit c = true := by
  cases hwhole : n.whole with
  | nil => exact (n.whole_ne_nil hwhole).elim
  | cons c rest =>
      have hc : c ∈ n.whole := by
        rw [hwhole]
        exact List.mem_cons_self
      exact ⟨c, _, by rw [body, hwhole, List.cons_append], n.whole_digits c hc⟩

theorem head?_exponentChars {rest : List Char} :
    ∀ c ∈ (exponentChars n.exponent ++ rest).head?,
      c = 'E' ∨ n.exponent = none ∧ c ∈ rest.head? := by
  intro c hc
  cases hexponent : n.exponent with
  | none =>
      rw [hexponent] at hc
      exact .inr ⟨rfl, hc⟩
  | some exponent =>
      rw [hexponent] at hc
      exact .inl (Option.some.inj hc).symm

theorem ne_sign {c : Char} (hdigit : isAsciiDigit c = true) : c ≠ '-' ∧ c ≠ '+' :=
  of_isAsciiDigit (P := fun c => c ≠ '-' ∧ c ≠ '+') (by decide) hdigit

theorem takeSign_cons {c : Char} (hdigit : isAsciiDigit c = true) (rest : List Char) :
    Decimal.takeSign (c :: rest) = (false, c :: rest) := by
  obtain ⟨hminus, hplus⟩ := ne_sign hdigit
  rw [Decimal.takeSign]
  · exact fun _ h => hminus (List.cons.inj h).1
  · exact fun _ h => hplus (List.cons.inj h).1

theorem takeSign_chars : Decimal.takeSign n.chars = (n.negative, n.body) := by
  obtain ⟨c, rest, hbody, hdigit⟩ := n.exists_body_eq
  rw [chars, hbody]
  cases n.negative with
  | true => rfl
  | false => exact takeSign_cons hdigit rest

theorem exponent?_mark {mark : Char} (hmark : mark = 'e' ∨ mark = 'E') (exponent : Int) :
    Decimal.exponent? (mark :: Decimal.exponentText exponent) = some exponent := by
  obtain ⟨n, habs⟩ : ∃ n, exponent.natAbs = n := ⟨_, rfl⟩
  have hdigits : (Nat.toDigits 10 n).all isDecimalDigit = true :=
    List.all_eq_true.mpr (digits_toDigits n).isDecimalDigit
  by_cases hnegative : exponent < 0
  · simp [Decimal.exponentText, Decimal.exponent?, Decimal.takeSign, hmark, hnegative, habs,
      hdigits, digitsValue_toDigits]
    omega
  · simp [Decimal.exponentText, Decimal.exponent?, Decimal.takeSign, hmark, hnegative, habs,
      hdigits, digitsValue_toDigits]
    omega

theorem exponent?_exponentChars (exponent : Option Int) :
    Decimal.exponent? (exponentChars exponent) = some (exponent.getD 0) := by
  cases exponent with
  | none => rfl
  | some exponent => exact exponent?_mark (.inr rfl) exponent

/-- The digits of a numeral in front of an exponent, however its mark is written. -/
theorem unsigned?_append (negative : Bool) {rest : List Char} {exponent : Int}
    (hexponent : Decimal.exponent? rest = some exponent)
    (hrest : ∀ c ∈ rest.head?, isDecimalDigit c = false ∧ c ≠ '.') :
    Decimal.unsigned? negative (n.whole ++ (pointChars n.fraction ++ rest)) =
      some (.finite negative (digitsValue (n.whole ++ n.fraction))
        (exponent - n.fraction.length)) := by
  have hdigit : ∀ c ∈ rest.head?, isDecimalDigit c = false := fun c hc => (hrest c hc).1
  have hwhole : ∀ c ∈ (pointChars n.fraction ++ rest).head?, isDecimalDigit c = false := by
    rw [pointChars]
    split
    · exact hdigit
    · rintro c ⟨⟩
      decide
  have hempty : n.whole.isEmpty = false := by
    rw [List.isEmpty_eq_false_iff]
    exact n.whole_ne_nil
  rw [Decimal.unsigned?, takeWhile_append_eq n.whole_digits.isDecimalDigit hwhole,
    dropWhile_append_eq n.whole_digits.isDecimalDigit hwhole]
  by_cases hfraction : n.fraction = []
  · rw [pointChars, if_pos hfraction, List.nil_append, hfraction]
    cases rest with
    | nil => simp [hempty, hexponent]
    | cons c rest =>
        have hpoint : c ≠ '.' := (hrest c rfl).2
        simp [hempty, hexponent, hpoint]
  · rw [pointChars, if_neg hfraction, List.cons_append]
    simp [hempty, hexponent, takeWhile_append_eq n.fraction_digits.isDecimalDigit hdigit,
      dropWhile_append_eq n.fraction_digits.isDecimalDigit hdigit]

theorem unsigned?_body : Decimal.unsigned? n.negative n.body = some n.value := by
  refine n.unsigned?_append n.negative (exponent?_exponentChars n.exponent) fun c hc => ?_
  rw [← List.append_nil (exponentChars n.exponent)] at hc
  rcases n.head?_exponentChars c hc with rfl | ⟨_, hrest⟩
  · decide
  · cases hrest

/-- A text that starts with a digit behind its sign is no name. -/
theorem ofChars?_of_takeSign {text rest : List Char} {negative : Bool} {c : Char}
    (hsign : Decimal.takeSign text = (negative, c :: rest)) (hdigit : isAsciiDigit c = true) :
    Decimal.ofChars? text = Decimal.unsigned? negative (c :: rest) := by
  have hlower : c.toLower ≠ 'i' ∧ c.toLower ≠ 'n' ∧ c.toLower ≠ 's' :=
    of_isAsciiDigit (P := fun c => c.toLower ≠ 'i' ∧ c.toLower ≠ 'n' ∧ c.toLower ≠ 's')
      (by decide) hdigit
  rw [Decimal.ofChars?, hsign]
  dsimp only
  split
  · next heq => exact (hlower.1 (List.cons.inj heq).1).elim
  · next heq => exact (hlower.1 (List.cons.inj heq).1).elim
  · next heq => exact (hlower.2.1 (List.cons.inj heq).1).elim
  · next heq => exact (hlower.2.2 (List.cons.inj heq).1).elim
  · rfl

/-- A numeral is read as the number that it stands for. -/
theorem ofChars?_chars : Decimal.ofChars? n.chars = some n.value := by
  obtain ⟨c, rest, hbody, hdigit⟩ := n.exists_body_eq
  rw [ofChars?_of_takeSign (hbody ▸ n.takeSign_chars) hdigit, ← hbody, n.unsigned?_body]

end Numeral

/-! ## Integers and decimal numbers as numerals -/

namespace Numeral

/-- The digits of a natural number under a sign. -/
def ofNat (negative : Bool) (n : Nat) : Numeral where
  negative := negative
  whole := Nat.toDigits 10 n
  whole_ne_nil := Nat.toDigits_ne_nil
  whole_digits := digits_toDigits n
  whole_zero hzero := by
    rcases Nat.eq_zero_or_pos n with rfl | hpos
    · rfl
    · exact (head?_toDigits_ne_zero hpos hzero).elim
  fraction_digits := List.forall_mem_nil _

/-- Digits with a point among them or in front of them are a numeral, with any exponent. -/
theorem exists_placePoint (negative : Bool) (coefficient : Nat) (exponent : Option Int)
    (place : Int) (hplace : place ≤ (Nat.toDigits 10 coefficient).length) :
    ∃ n : Numeral, n.negative = negative ∧ n.exponent = exponent ∧
      n.whole ++ pointChars n.fraction = Decimal.placePoint (Nat.toDigits 10 coefficient) place ∧
      digitsValue (n.whole ++ n.fraction) = coefficient ∧
      (n.fraction.length : Int) = (Nat.toDigits 10 coefficient).length - place := by
  have hdigits := digits_toDigits coefficient
  have hpos : 0 < (Nat.toDigits 10 coefficient).length := Nat.length_toDigits_pos
  by_cases hfront : place ≤ 0
  · -- Zeros fill up the digits behind the point.
    have hfraction := (digits_replicate_zero place.natAbs).append hdigits
    refine ⟨⟨negative, ['0'], _, exponent, by decide, digits_replicate_zero 1, fun _ => rfl,
      hfraction⟩, rfl, rfl, ?_, ?_, ?_⟩
    · simp [Decimal.placePoint, hfront, pointChars]
    · have hvalue := digitsValue_zeros_append (place.natAbs + 1) hdigits
      rwa [List.replicate_succ, List.cons_append, digitsValue_toDigits] at hvalue
    · simp only [List.length_append, List.length_replicate]
      omega
  · by_cases hend : (Nat.toDigits 10 coefficient).length ≤ place.toNat
    · refine ⟨{ ofNat negative coefficient with exponent := exponent }, rfl, rfl, ?_, ?_, ?_⟩
      · have hnone : place.toNat - (Nat.toDigits 10 coefficient).length = 0 := by omega
        simp [Decimal.placePoint, hfront, hend, hnone, ofNat, pointChars]
      · simp [ofNat, digitsValue_toDigits]
      · simp only [ofNat, List.length_nil]
        omega
    · -- A number of several digits does not start with a zero.
      have hcoefficient : 0 < coefficient := by
        rcases Nat.eq_zero_or_pos coefficient with rfl | hcoefficient
        · rw [Nat.toDigits_zero, List.length_singleton] at hend
          omega
        · exact hcoefficient
      have hhead : ((Nat.toDigits 10 coefficient).take place.toNat).head? ≠ some '0' := by
        rw [List.head?_take, if_neg (by omega)]
        exact head?_toDigits_ne_zero hcoefficient
      have hdrop : (Nat.toDigits 10 coefficient).drop place.toNat ≠ [] := by
        rw [ne_eq, List.drop_eq_nil_iff]
        exact hend
      refine ⟨⟨negative, (Nat.toDigits 10 coefficient).take place.toNat,
        (Nat.toDigits 10 coefficient).drop place.toNat, exponent, ?_, ?_, ?_, ?_⟩,
        rfl, rfl, ?_, ?_, ?_⟩
      · rw [ne_eq, List.take_eq_nil_iff]
        rintro (hzero | hnil)
        · omega
        · exact Nat.toDigits_ne_nil hnil
      · exact fun c hc => hdigits c (List.mem_of_mem_take hc)
      · exact fun hzero => (hhead hzero).elim
      · exact fun c hc => hdigits c (List.mem_of_mem_drop hc)
      · simp [Decimal.placePoint, hfront, hend, pointChars, hdrop]
      · simp [digitsValue_toDigits]
      · simp only [List.length_drop]
        omega

/-- A finite decimal number is written as a numeral that stands for it. There is neither a point nor
an exponent in it when the exponent of the number is zero, and only then. -/
theorem exists_chars_eq (negative : Bool) (coefficient : Nat) (exponent : Int) :
    ∃ n : Numeral, n.chars = (Decimal.finite negative coefficient exponent).toChars ∧
      n.value = .finite negative coefficient exponent ∧ (n.IsWhole ↔ exponent = 0) := by
  have hpos : 0 < (Nat.toDigits 10 coefficient).length := Nat.length_toDigits_pos
  by_cases hpositional : exponent ≤ 0 ∧ -6 < exponent + (Nat.toDigits 10 coefficient).length
  · obtain ⟨n, hnegative, hexponent, hchars, hvalue, hlength⟩ :=
      exists_placePoint negative coefficient none
        (exponent + (Nat.toDigits 10 coefficient).length) (by omega)
    refine ⟨n, ?_, ?_, ?_⟩
    · rw [chars, body, hnegative, hexponent, exponentChars, Option.elim_none, List.append_nil,
        hchars, Decimal.toChars, Decimal.finiteText, if_pos hpositional]
    · rw [value, hnegative, hexponent, hvalue, hlength, Option.getD_none]
      congr 1
      omega
    · rw [IsWhole, hexponent, ← List.length_eq_zero_iff]
      constructor
      · rintro ⟨hfraction, -⟩
        omega
      · exact fun hzero => ⟨by omega, rfl⟩
  · obtain ⟨n, hnegative, hexponent, hchars, hvalue, hlength⟩ :=
      exists_placePoint negative coefficient
        (some (exponent + (Nat.toDigits 10 coefficient).length - 1)) 1 (by omega)
    have hplace : exponent + (Nat.toDigits 10 coefficient).length ≠ 1 := by omega
    refine ⟨n, ?_, ?_, ?_⟩
    · rw [chars, body, hnegative, hexponent, exponentChars, Option.elim_some,
        ← List.append_assoc n.whole, hchars, Decimal.toChars, Decimal.finiteText,
        if_neg hpositional, if_neg hplace]
    · rw [value, hnegative, hexponent, hvalue, hlength, Option.getD_some]
      congr 1
      omega
    · rw [IsWhole, hexponent]
      constructor
      · exact fun h => nomatch h.2
      · omega

end Numeral

namespace Decimal

end Decimal

end LayeredConfig
