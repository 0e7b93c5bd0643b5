import LayeredConfig.Proofs.Number.Numeral

/-! # Numerals with a point

A numeral without a point gets one, in front of a zero that its number does not have. The number
stays the same in value, but takes one digit more: with the least exponent that there is, it has no
room for it. -/

namespace LayeredConfig

open Text

/-! ## Numbers with one zero more -/

namespace Decimal

/-- The same value, or no number at all. -/
def Agrees (number read : Decimal) : Prop :=
  if number.isNan then read.isNan = true else number.sameValue read = true

/-- The least exponent of a representable number. -/
def leastExponent : Int := -1999999999999999997

/-- A number of one digit with the least exponent. -/
def IsSmallest : Decimal → Prop
  | finite _ coefficient exponent =>
      0 < coefficient ∧ coefficient < 10 ∧ exponent = leastExponent
  | _ => False

instance : DecidablePred IsSmallest
  | finite .. => inferInstanceAs (Decidable (_ ∧ _ ∧ _))
  | infinite _ | nan .. => inferInstanceAs (Decidable False)

variable {negative : Bool} {coefficient : Nat} {exponent : Int}

theorem agrees_self {number : Decimal} (h : number.isNan = false) : Agrees number number := by
  simp [Agrees, sameValue, h]

theorem stripZeros_eq_zero_iff (coefficient : Nat) (exponent : Int) :
    (stripZeros coefficient exponent).1 = 0 ↔ coefficient = 0 := by
  fun_induction stripZeros coefficient exponent with
  | case1 => simp
  | case2 coefficient exponent hne hzero ih =>
      rw [ih]
      omega
  | case3 => rfl

/-- Only zero is read as zero. -/
theorem agrees_zero_iff {least : Int} :
    Agrees (finite negative coefficient exponent) (finite negative 0 least) ↔ coefficient = 0 := by
  have hzero : ∀ power, stripZeros 0 power = (0, 0) := fun power => by rw [stripZeros, if_pos rfl]
  have hdigits := stripZeros_eq_zero_iff coefficient exponent
  simp only [Agrees, sameValue, isNan, normal, hzero]
  constructor
  · intro h
    simp at h
    exact hdigits.mp h.2.1
  · rintro rfl
    simp [hzero]

/-- One zero more behind the point does not change the value. -/
theorem agrees_zero_behind :
    Agrees (finite negative coefficient exponent)
      (finite negative (10 * coefficient) (exponent - 1)) := by
  have hstrip : stripZeros (10 * coefficient) (exponent - 1) = stripZeros coefficient exponent := by
    rw [stripZeros]
    split
    · next hzero =>
      have hzero : coefficient = 0 := by omega
      rw [hzero, stripZeros, if_pos rfl]
    · rw [if_pos (Nat.mul_mod_right 10 coefficient), Nat.mul_div_cancel_left _ (by decide),
        Int.sub_add_cancel]
  simp [Agrees, sameValue, isNan, normal, hstrip]

theorem length_toDigits_mul_ten_le (n : Nat) :
    (Nat.toDigits 10 (10 * n)).length ≤ (Nat.toDigits 10 n).length + 1 := by
  rw [Nat.toDigits_eq_if (by decide)]
  split
  · simp
  · rw [List.length_append, Nat.mul_div_cancel_left n (by decide)]
    exact Nat.le_refl _

theorem isRepresentable_zero_behind
    (h : (finite negative coefficient exponent).isRepresentable = true) :
    (finite negative (10 * coefficient) (exponent - 1)).isRepresentable = true ↔
      exponent ≠ leastExponent := by
  have hlength := length_toDigits_mul_ten_le coefficient
  simp only [isRepresentable, Bool.and_eq_true, decide_eq_true_eq] at h ⊢
  simp only [leadingExponent, leastExponent] at h ⊢
  omega

/-- Several digits are written with a point unless the number is whole. -/
theorem mem_finiteText (hcoefficient : 10 ≤ coefficient) (hexponent : exponent ≠ 0) :
    '.' ∈ finiteText coefficient exponent := by
  have hlength : 1 < (Nat.toDigits 10 coefficient).length := by
    rw [Nat.toDigits_eq_if (by decide), if_neg (by omega), List.length_append]
    have hrest : 0 < (Nat.toDigits 10 (coefficient / 10)).length := Nat.length_toDigits_pos
    rw [List.length_singleton]
    omega
  have hpoint : ∀ place : Int, place < (Nat.toDigits 10 coefficient).length →
      '.' ∈ placePoint (Nat.toDigits 10 coefficient) place := by
    intro place hplace
    rw [placePoint]
    split
    · simp
    · rw [if_neg (by omega)]
      simp
  rw [finiteText]
  split
  · exact hpoint _ (by omega)
  · exact List.mem_append_left _ (hpoint 1 (by omega))

theorem not_mem_finiteText_least :
    ∀ coefficient < 10, '.' ∉ finiteText coefficient leastExponent := by
  decide +kernel

end Decimal

/-! ## Numerals with a point -/

namespace Numeral

variable (n : Numeral)

/-- Where there is no digit behind the point, a zero is put there. -/
def pointed : Numeral :=
  if n.fraction = [] then
    { n with fraction := ['0'], fraction_digits := digits_replicate_zero 1 }
  else n

theorem fraction_pointed_ne_nil : n.pointed.fraction ≠ [] := by
  rw [pointed]
  split
  · exact List.cons_ne_nil _ _
  · assumption

theorem pointed_of_fraction_ne_nil (h : n.fraction ≠ []) : n.pointed = n := if_neg h

theorem value_pointed {n : Numeral} (h : n.fraction = []) {negative : Bool} {coefficient : Nat}
    {exponent : Int} (hvalue : n.value = .finite negative coefficient exponent) :
    n.pointed.value = .finite negative (10 * coefficient) (exponent - 1) := by
  rw [value, h, List.append_nil, List.length_nil] at hvalue
  obtain ⟨rfl, rfl, rfl⟩ := Decimal.finite.inj hvalue
  rw [pointed, if_pos h, value]
  congr 1
  · have hdigits := n.whole_digits.append (digits_replicate_zero 1)
    rw [List.replicate_one] at hdigits
    rw [hdigits.digitsValue_eq, n.whole_digits.digitsValue_eq, Nat.ofDigitChars_append]
    simp [Nat.ofDigitChars_cons]
  · simp

variable {P : Char → Prop}

theorem mem_chars_of (hdigit : ∀ i < 10, P (Char.ofNat (48 + i)))
    (hsign : P '-' ∧ P '+' ∧ P 'E') (hpoint : n.fraction ≠ [] → P '.') : ∀ c ∈ n.chars, P c := by
  obtain ⟨hminus, hplus, hexp⟩ := hsign
  have hdigits : ∀ {text : List Char}, Digits text → ∀ c ∈ text, P c := fun htext c hc =>
    of_isAsciiDigit hdigit (htext c hc)
  have hsigned : ∀ c ∈ Decimal.signText n.negative, P c := by
    cases n.negative <;> simp [Decimal.signText, hminus]
  have hfraction : ∀ c ∈ pointChars n.fraction, P c := by
    rw [pointChars]
    split
    · simp
    · next hne => exact List.forall_mem_cons.mpr ⟨hpoint hne, hdigits n.fraction_digits⟩
  have hexponent : ∀ c ∈ exponentChars n.exponent, P c := by
    cases n.exponent with
    | none => simp [exponentChars]
    | some exponent =>
        rw [exponentChars, Option.elim_some, Decimal.exponentText]
        refine List.forall_mem_cons.mpr ⟨hexp, List.forall_mem_cons.mpr
          ⟨?_, hdigits (digits_toDigits _)⟩⟩
        split
        · exact hminus
        · exact hplus
  exact List.forall_mem_append.mpr ⟨hsigned, List.forall_mem_append.mpr
    ⟨hdigits n.whole_digits, List.forall_mem_append.mpr ⟨hfraction, hexponent⟩⟩⟩

/-- What holds of the digits and of the four signs holds of every character. -/
theorem mem_chars (hdigit : ∀ i < 10, P (Char.ofNat (48 + i)))
    (hsign : P '-' ∧ P '+' ∧ P 'E' ∧ P '.') : ∀ c ∈ n.chars, P c :=
  n.mem_chars_of hdigit ⟨hsign.1, hsign.2.1, hsign.2.2.1⟩ fun _ => hsign.2.2.2

/-- There is a point where there is a digit behind it. -/
theorem point_mem_chars_iff : '.' ∈ n.chars ↔ n.fraction ≠ [] := by
  constructor
  · intro hmem hfraction
    exact n.mem_chars_of (P := (· ≠ '.')) (by decide) (by decide)
      (fun hne => absurd hfraction hne) '.' hmem rfl
  · intro hfraction
    simp [chars, body, pointChars, hfraction]

end Numeral

end LayeredConfig
