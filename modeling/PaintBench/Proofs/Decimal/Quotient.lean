import PaintBench.Proofs.Decimal.Bits

/-!
# Quotients of normal numbers

A quotient of two significands has 53 or 54 bits, and stands for a number in whose interval it
lies: then it has its place (`exists_place`) and is rounded to it (`roundWithAccuracy_of_holds`),
also where it is just below a power of two. So a quotient of normal numbers is computed as
the number in whose interval it lies (`div_eq_normal`).
-/

namespace PaintBench.Decimal

open Float.Model Float.Model.UnpackedFloat
open Binary64 (packed unpacked)

variable {m s num den u : Nat}

theorem powerOfTwo_le {j k : Nat} (h : j ≤ k) : powerOfTwo j ≤ powerOfTwo k :=
  Nat.pow_le_pow_right (by decide) h

/-- A quotient of 53 or 54 bits stands near the place of a number in whose interval it lies. -/
theorem exists_place (h : IsNormal m s) (hden : 0 < den) (hlow : 2 ^ 52 * den ≤ num)
    (hhigh : num < 2 ^ 54 * den)
    (hin : (Interval.of m s).holds (num * powerOfTwo u) den = true) :
    s ≤ u ∧ u ≤ s + 2 := by
  obtain ⟨hbelow, habove, -⟩ := Interval.holds_iff.mp hin
  have hpos := powerOfTwo_pos u
  have hm := h.low
  have hm' := h.high
  constructor
  · refine Nat.le_of_not_lt fun hlt => ?_
    have hi : 2 ^ 54 * powerOfTwo u ≤ (Interval.of m s).low := calc
      2 ^ 54 * powerOfTwo u = 2 ^ 53 * powerOfTwo (1 + u) := by
        rw [powerOfTwo_add, ← Nat.mul_assoc]
        rfl
      _ ≤ (Interval.of m s).low :=
        Nat.mul_le_mul (by split <;> omega) (powerOfTwo_le (by omega))
    refine absurd hbelow (Nat.not_le.mpr ?_)
    calc num * powerOfTwo u < 2 ^ 54 * den * powerOfTwo u := Nat.mul_lt_mul_of_pos_right hhigh hpos
      _ = 2 ^ 54 * powerOfTwo u * den := Nat.mul_right_comm _ _ _
      _ ≤ (Interval.of m s).low * den := Nat.mul_le_mul_right den hi
  · refine Nat.le_of_not_lt fun hlt => ?_
    have hi : (Interval.of m s).high < 2 ^ 52 * powerOfTwo u := calc
      (Interval.of m s).high < 2 ^ 55 * powerOfTwo s :=
        Nat.mul_lt_mul_of_pos_right (by omega) (powerOfTwo_pos s)
      _ = 2 ^ 52 * powerOfTwo (3 + s) := by
        rw [powerOfTwo_add, ← Nat.mul_assoc]
        rfl
      _ ≤ 2 ^ 52 * powerOfTwo u := Nat.mul_le_mul_left _ (powerOfTwo_le (by omega))
    refine absurd habove (Nat.not_le.mpr ?_)
    calc (Interval.of m s).high * den < 2 ^ 52 * powerOfTwo u * den :=
        Nat.mul_lt_mul_of_pos_right hi hden
      _ = 2 ^ 52 * den * powerOfTwo u := Nat.mul_right_comm _ _ _
      _ ≤ num * powerOfTwo u := Nat.mul_le_mul_right _ hlow

/-- How far a number may be above a fraction that is rounded to it, in quarters. -/
def gap (m s : Nat) : Nat :=
  if m = powerOfTwo 52 ∧ s ≠ 0 then 1 else 2

section

variable {i : Nat} (hplace : s + 2 = u + i)

include hplace

theorem mul_place (a : Nat) :
    4 * (a * powerOfTwo s * den) = a * (den * powerOfTwo i) * powerOfTwo u := by
  have hfour : 4 * powerOfTwo s = powerOfTwo u * powerOfTwo i := by
    rw [← powerOfTwo_add, ← hplace, powerOfTwo_add, Nat.mul_comm]
    rfl
  calc 4 * (a * powerOfTwo s * den) = a * den * (4 * powerOfTwo s) := by ac_rfl
    _ = a * den * (powerOfTwo u * powerOfTwo i) := by rw [hfour]
    _ = a * (den * powerOfTwo i) * powerOfTwo u := by ac_rfl

/-- The interval of a number in quarters of its own place. -/
theorem holds_place (hm : 0 < m) (hin : (Interval.of m s).holds (num * powerOfTwo u) den = true) :
    4 * (m * (den * powerOfTwo i)) ≤ 4 * num + gap m s * (den * powerOfTwo i) ∧
      4 * num ≤ 4 * (m * (den * powerOfTwo i)) + 2 * (den * powerOfTwo i) ∧
      (m % 2 = 1 →
        4 * (m * (den * powerOfTwo i)) ≠ 4 * num + gap m s * (den * powerOfTwo i) ∧
          4 * num ≠ 4 * (m * (den * powerOfTwo i)) + 2 * (den * powerOfTwo i)) := by
  obtain ⟨hlow, hhigh, hodd⟩ := Interval.holds_iff.mp hin
  have hpos := powerOfTwo_pos u
  have hnum : 4 * (num * powerOfTwo u) = 4 * num * powerOfTwo u := (Nat.mul_assoc _ _ _).symm
  have hbelow : 4 * ((Interval.of m s).low * den) = _ := mul_place hplace (4 * m - gap m s)
  have habove : 4 * ((Interval.of m s).high * den) = _ := mul_place hplace (4 * m + 2)
  have hgap : gap m s ≤ 4 * m := by
    rw [gap]
    split <;> omega
  obtain ⟨d, hd⟩ : ∃ d, den * powerOfTwo i = d := ⟨_, rfl⟩
  rw [hd] at hbelow habove ⊢
  have hlow' : (4 * m - gap m s) * d ≤ 4 * num := by
    refine Nat.le_of_mul_le_mul_right ?_ hpos
    rw [← hbelow, ← hnum]
    exact Nat.mul_le_mul_left 4 hlow
  have hhigh' : 4 * num ≤ (4 * m + 2) * d := by
    refine Nat.le_of_mul_le_mul_right ?_ hpos
    rw [← habove, ← hnum]
    exact Nat.mul_le_mul_left 4 hhigh
  have hodd' (h : m % 2 = 1) : (4 * m - gap m s) * d ≠ 4 * num ∧ 4 * num ≠ (4 * m + 2) * d := by
    obtain ⟨hne, hne'⟩ := hodd (by simp [Interval.of, h])
    constructor
    · intro heq
      rw [heq, ← hnum] at hbelow
      exact hne (Nat.eq_of_mul_eq_mul_left (by decide) hbelow)
    · intro heq
      rw [← heq, ← hnum] at habove
      exact hne' (Nat.eq_of_mul_eq_mul_left (by decide) habove.symm)
  have hmul := Nat.mul_le_mul_right d hgap
  rw [Nat.sub_mul, Nat.mul_assoc] at hlow' hodd'
  rw [Nat.add_mul, Nat.mul_assoc] at hhigh' hodd'
  rw [Nat.mul_assoc] at hmul
  refine ⟨by omega, hhigh', fun h => ?_⟩
  have := hodd' h
  omega

end

theorem gap_le : gap m s ≤ 2 := by
  rw [gap]
  split <;> omega

/-- How many bits a quotient has, by a product. -/
theorem le_div_place {j k : Nat} (hden : 0 < den) (h : 2 ^ k * (den * powerOfTwo j) ≤ num) :
    2 ^ (k + j) ≤ num / den := by
  rw [Nat.le_div_iff_mul_le hden, Nat.pow_add, Nat.mul_assoc, Nat.mul_comm _ den]
  exact h

theorem div_lt_place {j k : Nat} (hden : 0 < den) (h : num < 2 ^ k * (den * powerOfTwo j)) :
    num / den < 2 ^ (k + j) := by
  rw [Nat.div_lt_iff_lt_mul hden, Nat.pow_add, Nat.mul_assoc, Nat.mul_comm _ den]
  exact h

/-- A quotient of 53 or 54 bits is rounded to the number in whose interval it lies. -/
theorem roundWithAccuracy_of_holds (h : IsNormal m s) (hden : 0 < den) (hlow : 2 ^ 52 * den ≤ num)
    (hhigh : num < 2 ^ 54 * den)
    (hin : (Interval.of m s).holds (num * powerOfTwo u) den = true) {t : Int}
    (ht : t + 1076 = u) (hmin : -1074 ≤ t) (sign : Sign) :
    roundWithAccuracy .binary64 sign (num / den) t (accuracyOfFraction (num % den) den) =
      .finite sign m (s - 1074) h.pos := by
  obtain ⟨hle, hge⟩ := exists_place h hden hlow hhigh hin
  obtain ⟨i, hi⟩ : ∃ i, s + 2 = u + i := ⟨s + 2 - u, by omega⟩
  obtain ⟨hbelow, habove, hodd⟩ := holds_place hi h.pos hin
  have hm := h.low
  have hm' := h.high
  have hpos : 0 < den * powerOfTwo i := Nat.mul_pos hden (powerOfTwo_pos i)
  have hleast := Nat.mul_le_mul_right (den * powerOfTwo i) hm
  have hmost := Nat.mul_le_mul_right (den * powerOfTwo i) (Nat.succ_le_of_lt hm')
  have hgap := Nat.mul_le_mul_right (den * powerOfTwo i) (gap_le (m := m) (s := s))
  rw [Nat.succ_mul] at hmost
  by_cases hwide : 2 ^ 52 * (den * powerOfTwo i) ≤ num
  · -- the place of the quotient is that of the number
    have hround : roundHalfEven num (den * powerOfTwo i) = m := by
      refine roundHalfEven_eq hpos ?_ ?_ fun h => ?_
      · rw [Nat.mul_assoc]
        omega
      · rw [Nat.add_mul, Nat.mul_assoc]
        omega
      · have := hodd h
        have hgap : gap m s = 2 := by
          rw [gap, powerOfTwo_52, if_neg (by omega)]
        rw [hgap] at this
        rw [Nat.add_mul, Nat.mul_assoc]
        omega
    exact roundWithAccuracy_quotient hden (by omega) (by omega) (le_div_place hden hwide)
      (div_lt_place hden (by omega)) sign hround hm hm'
  · -- the quotient is just below a power of two, where its own place is one less
    obtain ⟨j, rfl⟩ : ∃ j, i = j + 1 := by
      refine Nat.exists_eq_succ_of_ne_zero fun hzero => hwide ?_
      rw [hzero]
      exact (congrArg (2 ^ 52 * ·) (Nat.mul_one den)).trans_le hlow
    have hdouble : den * powerOfTwo (j + 1) = 2 * (den * powerOfTwo j) := by
      rw [powerOfTwo_add, ← Nat.mul_assoc, Nat.mul_comm]
      rfl
    have hpower : m = 2 ^ 52 := by
      by_contra hne
      have := Nat.mul_le_mul_right (den * powerOfTwo (j + 1)) (show 2 ^ 52 + 1 ≤ m by omega)
      rw [Nat.add_mul] at this
      omega
    subst hpower
    have hone : gap (2 ^ 52) s = 1 := if_pos ⟨rfl, by omega⟩
    rw [hone, hdouble] at hbelow
    rw [hdouble] at hwide
    have hpos' : 0 < den * powerOfTwo j := Nat.mul_pos hden (powerOfTwo_pos j)
    have hround : roundHalfEven num (den * powerOfTwo j) = 2 ^ 53 :=
      roundHalfEven_eq hpos' (by omega) (by omega) nofun
    refine (roundWithAccuracy_carry hden (show t + j = s - 1075 by omega) (by omega)
      (le_div_place hden (by omega)) (div_lt_place hden (by omega)) sign hround).trans
      (finite_congr rfl (by omega))

/-- A quotient is rounded once. -/
theorem div_finite (s₁ s₂ : Sign) {m₁ m₂ : Nat} {e₁ e₂ : Int} (hm₁ : 0 < m₁) (hm₂ : 0 < m₂) :
    UnpackedFloat.div .binary64 (.finite s₁ m₁ e₁ hm₁) (.finite s₂ m₂ e₂ hm₂) =
      roundWithAccuracy .binary64 (s₁ / s₂) (divCore .binary64 m₁ e₁ m₂ e₂).1
        (divCore .binary64 m₁ e₁ m₂ e₂).2.1 (divCore .binary64 m₁ e₁ m₂ e₂).2.2 :=
  rfl

section

variable {m₁ s₁ m₂ s₂ : Nat} (h₁ : IsNormal m₁ s₁) (h₂ : IsNormal m₂ s₂)

include h₁ h₂ in
/-- The quotient of two numbers is computed with 53 more bits. -/
theorem divCore_normal (hmin : s₂ ≤ s₁ + 1021) :
    divCore .binary64 m₁ (s₁ - 1074) m₂ (s₂ - 1074) =
      (m₁ * powerOfTwo 53 / m₂, (s₁ : Int) - s₂ - 53,
        accuracyOfFraction (m₁ * powerOfTwo 53 % m₂) m₂) := by
  have hlog₁ : m₁.log2 = 52 := (Nat.log2_eq_iff h₁.pos.ne').mpr ⟨h₁.low, h₁.high⟩
  have hlog₂ : m₂.log2 = 52 := (Nat.log2_eq_iff h₂.pos.ne').mpr ⟨h₂.low, h₂.high⟩
  have htarget : min ((s₁ : Int) - 1074 - (s₂ - 1074)) (Format.binary64.targetExponent
      (totalExponent m₁ (s₁ - 1074) - totalExponent m₂ (s₂ - 1074))) = s₁ - s₂ - 53 := by
    rw [targetExponent_eq, totalExponent, totalExponent, hlog₁, hlog₂]
    omega
  have hshift : ((s₁ : Int) - 1074 - (s₂ - 1074) - (s₁ - s₂ - 53)).toNat = 53 := by omega
  have hshifted : m₁ <<< 53 = m₁ * powerOfTwo 53 := Nat.shiftLeft_eq m₁ 53
  rw [divCore, htarget, hshift, hshifted]

/-- A quotient of normal numbers is the number in whose interval it lies. -/
theorem div_eq_normal (h : IsNormal m s) (hu : s₁ + 1023 = s₂ + u) (hmin : s₂ ≤ s₁ + 1021)
    (hin : (Interval.of m s).holds (m₁ * powerOfTwo 53 * powerOfTwo u) m₂ = true) :
    packed (normal false h₁) / packed (normal false h₂) = packed (normal false h) := by
  rw [Binary64.div_eq, unpacked_packed_normal, unpacked_packed_normal]
  refine congrArg packed ?_
  have hlow₁ := h₁.low
  have hhigh₁ := h₁.high
  have hlow₂ := h₂.low
  have hhigh₂ := h₂.high
  have hbits : m₁ * powerOfTwo 53 = m₁ * 2 ^ 53 := rfl
  rw [normal, normal, div_finite, divCore_normal h₁ h₂ hmin]
  exact roundWithAccuracy_of_holds h h₂.pos (by omega) (by omega) hin
    (show (s₁ : Int) - s₂ - 53 + 1076 = u by omega)
    (show -1074 ≤ (s₁ : Int) - s₂ - 53 by omega) _

end

end PaintBench.Decimal
