import Mathlib.Algebra.Group.Nat.Defs
import PaintBench.Decimal.Binary64
import PaintBench.Proofs.Quantity.Binary64

/-!
# Quotients of binary64 numbers

A quotient is computed as a whole number and how the rest compares to one half, and then shifted
until it has 53 bits. Shifting is the same as dividing by more from the start
(`shiftRight_extended`), so a quotient is rounded only once, as a fraction
(`roundWithAccuracy_quotient`).
-/

namespace PaintBench.Decimal

open Float.Model Float.Model.UnpackedFloat

/-! ## Rounding a fraction -/

/-- A fraction is rounded to a number if that is within a half, and even if it is just a half. -/
theorem roundHalfEven_eq {num den m : Nat} (hden : 0 < den) (hlow : 2 * m * den ≤ 2 * num + den)
    (hhigh : 2 * num ≤ (2 * m + 1) * den)
    (hodd : m % 2 = 1 → 2 * m * den ≠ 2 * num + den ∧ 2 * num ≠ (2 * m + 1) * den) :
    roundHalfEven num den = m := by
  have hdiv := Nat.div_add_mod num den
  have hmod := Nat.mod_lt num hden
  have hm : 2 * m * den = 2 * (den * m) := by rw [Nat.mul_assoc, Nat.mul_comm m den]
  have hm' : (2 * m + 1) * den = 2 * (den * m) + den := by rw [Nat.add_mul, hm, Nat.one_mul]
  rw [hm] at hlow hodd
  rw [hm'] at hhigh hodd
  rw [roundHalfEven]
  generalize num / den = q at hdiv ⊢
  generalize num % den = r at hdiv hmod ⊢
  have hq : q = m ∨ q + 1 = m := by
    by_contra hne
    rcases (by omega : m + 1 ≤ q ∨ q + 2 ≤ m) with h | h
    · have := Nat.mul_le_mul_left den h
      rw [Nat.mul_succ] at this
      omega
    · have := Nat.mul_le_mul_left den h
      rw [Nat.mul_add] at this
      omega
  simp only [Bool.or_eq_true, Bool.and_eq_true, decide_eq_true_eq, beq_iff_eq]
  rcases hq with rfl | rfl
  · rw [if_neg (by omega)]
  · rw [Nat.mul_succ] at hlow hodd
    rw [if_pos (by omega)]

/-! ## Shifting a fraction -/

/-- A fraction as a whole number and the bits that tell how to round it. -/
def extended (num den : Nat) : ExtendedMantissa :=
  .ofMantissaAndAccuracy (num / den) (accuracyOfFraction (num % den) den)

theorem roundedMantissa_extended (num : Nat) {den : Nat} (hden : 0 < den) :
    (extended num den).roundedMantissa = roundHalfEven num den := by
  rw [extended, roundHalfEven, accuracyOfFraction]
  generalize num / den = q
  generalize num % den = r
  simp only [Bool.or_eq_true, Bool.and_eq_true, decide_eq_true_eq, beq_iff_eq]
  by_cases hr : r = 0
  · rw [if_pos hr, if_neg (by omega)]
    rfl
  · rw [if_neg hr]
    rcases hcompare : compare (2 * r) den with _ | _ | _
    · have hlt := Nat.compare_eq_lt.mp hcompare
      rw [if_neg (by omega)]
      rfl
    · have heq := Nat.compare_eq_eq.mp hcompare
      change q + q % 2 = _
      split <;> omega
    · have hgt := Nat.compare_eq_gt.mp hcompare
      rw [if_pos (.inl hgt)]
      rfl

/-- A shift keeps the lowest bit, and whether there was any rest. -/
theorem shiftRightOne_exact (q : Nat) :
    (ExtendedMantissa.ofMantissaAndAccuracy q .exact).shiftRightOne = ⟨q / 2, q % 2 != 0, false⟩ :=
  rfl

theorem shiftRightOne_inexact (q : Nat) (half : Ordering) :
    (ExtendedMantissa.ofMantissaAndAccuracy q (.inexact half)).shiftRightOne =
      ⟨q / 2, q % 2 != 0, true⟩ := by
  cases half <;> rfl

theorem shiftRightOne_extended (num : Nat) {den : Nat} (hden : 0 < den) :
    (extended num den).shiftRightOne = extended num (den * 2) := by
  have hdiv : num / (den * 2) = num / den / 2 := (Nat.div_div_eq_div_mul num den 2).symm
  have hmod : num % (den * 2) = num % den + den * (num / den % 2) := Nat.mod_mul
  have hlt := Nat.mod_lt num hden
  rw [extended, extended, hdiv, hmod, accuracyOfFraction, accuracyOfFraction]
  generalize num / den = q
  generalize num % den = r at hlt ⊢
  by_cases hr : r = 0
  · rw [if_pos hr, shiftRightOne_exact, hr]
    rcases Nat.mod_two_eq_zero_or_one q with hq | hq <;> rw [hq]
    · rfl
    · rw [if_neg (by omega), Nat.compare_eq_eq.mpr (by omega)]
      rfl
  · rw [if_neg hr, shiftRightOne_inexact, if_neg (by omega)]
    rcases Nat.mod_two_eq_zero_or_one q with hq | hq <;> rw [hq]
    · rw [Nat.compare_eq_lt.mpr (by omega)]
      rfl
    · rw [Nat.compare_eq_gt.mpr (by omega)]
      rfl

theorem shiftRight_extended (num : Nat) {den : Nat} (hden : 0 < den) (j : Nat) :
    extended num den >>> j = extended num (den * 2 ^ j) := by
  induction j with
  | zero => rw [Nat.pow_zero, Nat.mul_one]; rfl
  | succ j ih =>
    change (extended num den >>> j).shiftRightOne = _
    rw [ih, shiftRightOne_extended num (Nat.mul_pos hden (Nat.pow_pos (by decide))), Nat.pow_succ,
      Nat.mul_assoc]

/-! ## Rounding to a format -/

/-- A number has 53 bits, or fewer where it counts the least units. -/
theorem targetExponent_eq (e : Int) :
    Format.binary64.targetExponent e = max (e - 53) (-1074) :=
  rfl

/-- A number of 53 bits is shifted no further. -/
theorem shiftToTargetExponent_exact {m : Nat} (hlow : 2 ^ 52 ≤ m) (hhigh : m < 2 ^ 53) {e : Int}
    (he : -1074 ≤ e) :
    shiftToTargetExponent .binary64 m e .exact = (⟨m, false, false⟩, e) := by
  have hlog : m.log2 = 52 := (Nat.log2_eq_iff (by omega)).mpr ⟨hlow, hhigh⟩
  have htarget : Format.binary64.targetExponent (totalExponent m e) = e := by
    rw [targetExponent_eq, totalExponent, hlog]
    omega
  rw [shiftToTargetExponent, htarget, shiftToExponent, Int.sub_self]
  simp only [Int.toNat_zero, Int.natCast_zero, Int.add_zero]
  rfl

/-- A number that was rounded up to 54 bits is shifted once more. -/
theorem shiftToTargetExponent_carry {e : Int} (he : -1074 ≤ e) :
    shiftToTargetExponent .binary64 (2 ^ 53) e .exact = (⟨2 ^ 52, false, false⟩, e + 1) := by
  have htarget : Format.binary64.targetExponent (totalExponent (2 ^ 53) e) = e + 1 := by
    rw [targetExponent_eq, totalExponent, Nat.log2_two_pow]
    omega
  have hone : (e + 1 - e).toNat = 1 := by omega
  rw [shiftToTargetExponent, htarget, shiftToExponent, hone]
  rfl

section

variable {num den j : Nat} {t e : Int} (hden : 0 < den) (he : t + j = e) (hmin : -1074 ≤ e)
  (hlow : 2 ^ (52 + j) ≤ num / den) (hhigh : num / den < 2 ^ (53 + j))

include hden he hmin hlow hhigh

/-- A quotient of at least 53 bits is shifted as a fraction. -/
theorem shiftToTargetExponent_quotient :
    shiftToTargetExponent .binary64 (num / den) t (accuracyOfFraction (num % den) den) =
      (extended num (den * 2 ^ j), e) := by
  have hpos : 0 < 2 ^ (52 + j) := Nat.pow_pos (by decide)
  have hlog : (num / den).log2 = 52 + j :=
    (Nat.log2_eq_iff (by omega)).mpr ⟨hlow, by rwa [Nat.add_right_comm]⟩
  have htarget : Format.binary64.targetExponent (totalExponent (num / den) t) = e := by
    rw [targetExponent_eq, totalExponent, hlog]
    omega
  have hshift : (e - t).toNat = j := by omega
  rw [shiftToTargetExponent, htarget, shiftToExponent, hshift, he, ← extended,
    shiftRight_extended num hden]

variable (sign : Sign)

/-- A quotient of at least 53 bits is rounded as a fraction. -/
theorem roundWithAccuracy_quotient {m : Nat} (hround : roundHalfEven num (den * 2 ^ j) = m)
    (hm : 2 ^ 52 ≤ m) (hm' : m < 2 ^ 53) :
    roundWithAccuracy .binary64 sign (num / den) t (accuracyOfFraction (num % den) den) =
      .finite sign m e (by omega) := by
  have hpos : 0 < den * 2 ^ j := Nat.mul_pos hden (Nat.pow_pos (by decide))
  rw [roundWithAccuracy, shiftToTargetExponent_quotient hden he hmin hlow hhigh]
  dsimp only
  rw [roundedMantissa_extended num hpos, hround, shiftToTargetExponent_exact hm hm' hmin]
  exact dif_neg (show m ≠ 0 by omega)

/-- If a quotient is rounded up to 54 bits, the result has a greater exponent. -/
theorem roundWithAccuracy_carry (hround : roundHalfEven num (den * 2 ^ j) = 2 ^ 53) :
    roundWithAccuracy .binary64 sign (num / den) t (accuracyOfFraction (num % den) den) =
      .finite sign (2 ^ 52) (e + 1) (by decide) := by
  have hpos : 0 < den * 2 ^ j := Nat.mul_pos hden (Nat.pow_pos (by decide))
  rw [roundWithAccuracy, shiftToTargetExponent_quotient hden he hmin hlow hhigh]
  dsimp only
  rw [roundedMantissa_extended num hpos, hround, shiftToTargetExponent_carry hmin]
  exact dif_neg (show 2 ^ 52 ≠ 0 by decide)

end

end PaintBench.Decimal
