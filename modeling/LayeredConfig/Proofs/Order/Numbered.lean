import LayeredConfig.Order.NumericFirst
import LayeredConfig.Proofs.Number.Numeral
import Mathlib.Algebra.Group.Nat.Defs

/-! # Numbered names

A natural number of at most fifty-three binary digits is a double. Names that are such numbers are
therefore ordered as the numbers are. -/

namespace LayeredConfig

namespace Binary64

theorem divRound_one (n : Nat) : divRound n 1 = n := by
  simp [divRound, Nat.mod_one]

theorem scale_one_neg (n k : Nat) : scale n 1 (-(k : Int)) = (n * 2 ^ k, 1) := by
  rcases Nat.eq_zero_or_pos k with rfl | hpos
  · simp [scale]
  · rw [scale, if_pos (by omega)]
    simp

/-- The mantissa of a natural number is the number with zeros behind its binary digits. -/
theorem exists_ofRatio_eq {n : Nat} (h : n < mantissaBound) :
    ∃ k : Nat, ofRatio false n 1 = finite false (n * 2 ^ k) (-k) := by
  rcases Nat.eq_zero_or_pos n with rfl | hpos
  · obtain ⟨k, hk⟩ : ∃ k : Nat, minExponent = -k := ⟨1074, rfl⟩
    exact ⟨k, by rw [ofRatio, if_pos rfl, Nat.zero_mul, hk]⟩
  · have hne : n ≠ 0 := Nat.ne_of_gt hpos
    have hlow : 2 ^ n.log2 ≤ n := Nat.log2_self_le hne
    have hhigh : n < 2 ^ (n.log2 + 1) := Nat.lt_log2_self
    have hlog : n.log2 ≤ 52 := by
      have hlt : n.log2 < 53 := (Nat.log2_lt hne).mpr h
      omega
    have hguess : max ((n.log2 : Int) - Nat.log2 1 - 53) minExponent =
        -((53 - n.log2 : Nat) : Int) := by
      rw [show Nat.log2 1 = 0 from by decide, minExponent]
      omega
    -- The first exponent that is tried leaves one binary digit too many.
    have hbig : mantissaBound ≤ n * 2 ^ (53 - n.log2) := by
      have hscaled := Nat.mul_le_mul_right (2 ^ (53 - n.log2)) hlow
      rwa [← Nat.pow_add, Nat.add_sub_cancel' (by omega : n.log2 ≤ 53)] at hscaled
    have hsmall : n * 2 ^ (52 - n.log2) < mantissaBound := by
      have hscaled := Nat.mul_lt_mul_of_pos_right hhigh (Nat.two_pow_pos (52 - n.log2))
      rwa [← Nat.pow_add, show n.log2 + 1 + (52 - n.log2) = 53 from by omega] at hscaled
    have hnext : -((53 - n.log2 : Nat) : Int) + 1 = -((52 - n.log2 : Nat) : Int) := by omega
    have hexponent : ¬(971 < -((52 - n.log2 : Nat) : Int)) := by omega
    refine ⟨52 - n.log2, ?_⟩
    simp only [ofRatio, if_neg hne, hguess, scale_one_neg, Nat.div_one, if_pos hbig, hnext,
      divRound_one, if_neg (Nat.ne_of_lt hsmall), if_neg hexponent]

theorem ratio_neg (n k : Nat) : ratio n (-(k : Int)) = (n, 2 ^ k) := by
  rcases Nat.eq_zero_or_pos k with rfl | hpos
  · simp [ratio]
  · rw [ratio, if_pos (by omega)]
    simp

theorem lt_finite_iff (m n k l : Nat) :
    (finite false (m * 2 ^ k) (-k)).lt (finite false (n * 2 ^ l) (-l)) = true ↔ m < n := by
  have hk : (0 : Int) < 2 ^ k := Int.pow_pos (by decide)
  have hl : (0 : Int) < 2 ^ l := Int.pow_pos (by decide)
  simp only [lt, signedRatio, ratio_neg, Bool.false_eq_true, if_false, decide_eq_true_eq,
    Int.natCast_mul, Int.natCast_pow, Int.cast_ofNat_Int]
  rw [Int.mul_right_comm (n : Int), Int.mul_lt_mul_right hl, Int.mul_lt_mul_right hk, Int.ofNat_lt]

theorem ofDecimal_natural {n : Nat} (h : n < mantissaBound) :
    ∃ k : Nat, ofDecimal (.finite false n 0) = finite false (n * 2 ^ k) (-k) := by
  obtain ⟨k, hk⟩ := exists_ofRatio_eq h
  refine ⟨k, ?_⟩
  rw [← hk, ofDecimal]
  rcases Nat.eq_zero_or_pos n with rfl | hpos
  · rfl
  · have hlength : (Nat.toDigits 10 n).length ≤ 16 :=
      (Nat.length_toDigits_le_iff (by decide) (by decide)).mpr (Nat.lt_trans h (by decide))
    have hleading : Decimal.leadingExponent n 0 = ((Nat.toDigits 10 n).length : Int) - 1 := by
      rw [Decimal.leadingExponent, Int.zero_add]
    rw [if_neg (Nat.ne_of_gt hpos), if_neg (by omega), if_neg (by omega), if_neg (by decide)]
    simp

end Binary64

namespace Order

theorem numberOfName?_toString {n : Nat} (h : n < Binary64.mantissaBound) :
    ∃ k : Nat, numberOfName? (toString n) = some (.finite false (n * 2 ^ k) (-k)) := by
  have hchars : (toString n).toList = (Numeral.ofNat false n).chars := by
    simp [Numeral.chars, Numeral.body, Numeral.ofNat, Numeral.pointChars, Numeral.exponentChars,
      Decimal.signText]
  obtain ⟨c, rest, hbody, hdigit⟩ := (Numeral.ofNat false n).exists_body_eq
  have hlower : c.toLower ≠ 'i' :=
    Text.of_isAsciiDigit (P := fun c => c.toLower ≠ 'i') (by decide) hdigit
  have hvalue : (Numeral.ofNat false n).value = .finite false n 0 := by
    simp [Numeral.value, Numeral.ofNat, Text.digitsValue_toDigits]
  obtain ⟨k, hk⟩ := Binary64.ofDecimal_natural h
  refine ⟨k, ?_⟩
  rw [numberOfName?, hchars, Numeral.takeSign_chars]
  dsimp only
  split
  · next heq =>
    rw [hbody] at heq
    exact (hlower (List.cons.inj heq).1).elim
  · next heq =>
    rw [hbody] at heq
    exact (hlower (List.cons.inj heq).1).elim
  · rw [(Numeral.ofNat false n).unsigned?_body, hvalue, Option.map_some,
      hk]

/-- Small numbers are told apart by their value. -/
theorem numericFirst_toString {m n : Nat} (hm : m < Binary64.mantissaBound)
    (hn : n < Binary64.mantissaBound) (hlt : m < n) :
    numericFirst (toString m) (toString n) = .lt := by
  obtain ⟨k, hk⟩ := numberOfName?_toString hm
  obtain ⟨l, hl⟩ := numberOfName?_toString hn
  rw [numericFirst, hk, hl]
  simp only [compareNumbers, (Binary64.lt_finite_iff m n k l).mpr hlt, if_true]
  rfl

end Order

end LayeredConfig
