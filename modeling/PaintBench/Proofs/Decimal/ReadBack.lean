import PaintBench.Decimal.Scaled
import PaintBench.Proofs.Decimal.Quotient

/-!
# Decimals that are read exactly

Digits that fit into a significand are a number without being rounded, and so is a power of ten
up to `10 ^ 22`, as `5 ^ 22` fits into one (`exists_isExact`). A decimal with such digits and at
most 22 places is rounded only once, in its quotient: it is read as the number in whose interval
it lies (`scaled_eq`).
-/

namespace PaintBench.Decimal

open Float.Model Float.Model.UnpackedFloat
open Binary64 (packed unpacked)

/-! ## Whole numbers and powers of ten -/

/-- A whole number that is a normal number `m * 2 ^ (s - 1074)`. -/
structure IsExact (n m s : Nat) : Prop where
  isNormal : IsNormal m s
  value : m * powerOfTwo s = n * powerOfTwo 1074
  nearest : nearest false n 1 = packed (normal false isNormal)

/-- A number is exact if it fits into a significand but for a power of two. -/
theorem exists_isExact {n : Nat} (hn : 0 < n) (hlt : n < 2 ^ 53) {k : Nat} (hk : k ≤ 900) :
    ∃ m, IsExact (n * powerOfTwo k) m (n.log2 + k + 1022) := by
  have hlog : n.log2 < 53 := (Nat.log2_lt hn.ne').mpr hlt
  have hself := Nat.log2_self_le hn.ne'
  have hsucc : n < 2 ^ (n.log2 + 1) := Nat.lt_log2_self
  obtain ⟨places, hplaces⟩ : ∃ places, n.log2 + places = 52 := ⟨52 - n.log2, by omega⟩
  have hpos := powerOfTwo_pos places
  have hnormal : IsNormal (n * powerOfTwo places) (n.log2 + k + 1022) := by
    refine ⟨?_, ?_, by omega⟩
    · calc 2 ^ 52 = 2 ^ n.log2 * powerOfTwo places := by rw [← hplaces, Nat.pow_add]; rfl
        _ ≤ n * powerOfTwo places := Nat.mul_le_mul_right _ hself
    · calc n * powerOfTwo places < 2 ^ (n.log2 + 1) * powerOfTwo places :=
          Nat.mul_lt_mul_of_pos_right hsucc hpos
        _ = 2 ^ (n.log2 + 1 + places) := (Nat.pow_add _ _ _).symm
        _ = 2 ^ 53 := by rw [Nat.add_right_comm, hplaces]
  have hvalue (j : Nat) : n * powerOfTwo places * powerOfTwo (n.log2 + k + j) =
      n * powerOfTwo k * powerOfTwo (52 + j) := by
    have hsum : places + (n.log2 + k + j) = k + (52 + j) := by omega
    rw [Nat.mul_assoc, ← powerOfTwo_add, hsum, powerOfTwo_add, Nat.mul_assoc]
  exact ⟨_, hnormal, hvalue 1022,
    nearest_eq_normal (Nat.mul_pos hn (powerOfTwo_pos k)) (log2_mul_powerOfTwo hn k) (hvalue 0)
      hnormal⟩

theorem powerOfFive_lt {k : Nat} (hk : k ≤ 22) : 5 ^ k < 2 ^ 53 :=
  Nat.lt_of_le_of_lt (Nat.pow_le_pow_right (by decide) hk) (by decide)

theorem floatPower_eq (k : Nat) (hk : k ≤ 400) : floatPower k = nearest false (powerOfTen k) 1 := by
  rw [floatPower, ofDecimal, if_neg Nat.one_ne_zero, if_neg (by omega), if_neg (by omega),
    Nat.one_mul]
  rfl

/-! ## Decimals -/

/-- A decimal is read as a quotient. -/
theorem scaled_eq_div (negative : Bool) (digits : Nat) {places : Nat} (hpos : 0 < places)
    (hmax : places ≤ maxPower) :
    scaled negative digits (-places) =
      if negative then -(nearest false digits 1 / floatPower places)
      else nearest false digits 1 / floatPower places := by
  have hdivide : divideByPower (nearest false digits 1) places =
      nearest false digits 1 / floatPower places := by
    rw [divideByPower, if_pos hmax]
  have hneg : -(places : Int) < 0 := by omega
  rw [scaled, Int.natAbs_neg, Int.natAbs_natCast, hdivide, if_pos hneg]

/-- A quotient of exact numbers is a fraction of the numbers, in other units. -/
theorem cross_eq {m₁ s₁ m₂ s₂ a b u n j k : Nat} (h₁ : m₁ * powerOfTwo s₁ = a * powerOfTwo n)
    (h₂ : m₂ * powerOfTwo s₂ = b * powerOfTwo n) (hu : s₁ + k = s₂ + u) :
    m₁ * powerOfTwo j * powerOfTwo u * b = a * powerOfTwo (j + k) * m₂ := by
  refine Nat.eq_of_mul_eq_mul_right (Nat.mul_pos (powerOfTwo_pos s₂) (powerOfTwo_pos n)) ?_
  calc m₁ * powerOfTwo j * powerOfTwo u * b * (powerOfTwo s₂ * powerOfTwo n)
      = m₁ * powerOfTwo j * (powerOfTwo s₂ * powerOfTwo u) * (b * powerOfTwo n) := by ac_rfl
    _ = m₁ * powerOfTwo j * (powerOfTwo s₁ * powerOfTwo k) * (m₂ * powerOfTwo s₂) := by
      rw [← powerOfTwo_add, ← hu, powerOfTwo_add, h₂]
    _ = m₁ * powerOfTwo s₁ * (powerOfTwo j * powerOfTwo k) * (m₂ * powerOfTwo s₂) := by ac_rfl
    _ = a * powerOfTwo n * powerOfTwo (j + k) * (m₂ * powerOfTwo s₂) := by
      rw [h₁, ← powerOfTwo_add]
    _ = a * powerOfTwo (j + k) * m₂ * (powerOfTwo s₂ * powerOfTwo n) := by ac_rfl

theorem neg_normal {m s : Nat} (h : IsNormal m s) :
    -packed (normal false h) = packed (normal true h) :=
  congrArg (fun u => packed (UnpackedFloat.neg u)) (unpacked_packed_normal false h)

variable {x : Float} {negative : Bool} {m s digits places : Nat}

/-- A decimal with few digits stands for a normal number. -/
theorem isNormal_of_holds (hunpack : unpack x = .finite negative m s) (hdigits : 0 < digits)
    (hplaces : places ≤ 22)
    (hin : (Interval.of m s).holds (digits * powerOfTwo 1076) (powerOfTen places) = true) :
    2 ^ 52 ≤ m := by
  refine Nat.le_of_not_lt fun hlt => ?_
  obtain rfl := (toNat_toBits_of_unpack hunpack).2.2.2 hlt
  have hten : powerOfTen places ≤ powerOfTen 22 := Nat.pow_le_pow_right (by decide) hplaces
  have hbelow : powerOfTwo 54 * powerOfTen 22 < powerOfTwo 128 := by decide
  refine absurd (Interval.holds_iff.mp hin).2.1 (Nat.not_le.mpr ?_)
  calc (4 * m + 2) * powerOfTwo 0 * powerOfTen places ≤ powerOfTwo 54 * powerOfTen 22 :=
        Nat.mul_le_mul (show (4 * m + 2) * 1 ≤ 2 ^ 54 by omega) hten
    _ < powerOfTwo 128 := hbelow
    _ ≤ powerOfTwo 1076 := powerOfTwo_le (by decide)
    _ ≤ digits * powerOfTwo 1076 := Nat.le_mul_of_pos_left _ hdigits

/-- A decimal with few digits is read as the number in whose interval it lies. -/
theorem scaled_eq (hunpack : unpack x = .finite negative m s) (hdigits : 0 < digits)
    (hdigits' : digits < 2 ^ 53) (hplaces : 0 < places) (hplaces' : places ≤ 22)
    (hin : (Interval.of m s).holds (digits * powerOfTwo 1076) (powerOfTen places) = true) :
    scaled negative digits (-places) = x := by
  obtain ⟨h, hx⟩ := eq_normal_of_unpack hunpack
    (isNormal_of_holds hunpack hdigits hplaces' hin)
  obtain ⟨m₁, h₁⟩ := exists_isExact hdigits hdigits' (Nat.zero_le 900)
  obtain ⟨m₂, h₂⟩ := exists_isExact (Nat.pow_pos (by decide)) (powerOfFive_lt hplaces')
    (show places ≤ 900 by omega)
  have hone : digits * powerOfTwo 0 = digits := Nat.mul_one digits
  have hten : 5 ^ places * powerOfTwo places = powerOfTen places := (powerOfTen_eq _).symm
  have hlog : (5 ^ places).log2 < 53 :=
    (Nat.log2_lt (Nat.pow_pos (by decide)).ne').mpr (powerOfFive_lt hplaces')
  rw [hone] at h₁
  rw [hten] at h₂
  obtain ⟨u, hu⟩ : ∃ u, digits.log2 + 0 + 1022 + 1023 =
      (5 ^ places).log2 + places + 1022 + u := Nat.exists_eq_add_of_le (by omega)
  have hquotient := div_eq_normal h₁.isNormal h₂.isNormal h hu (by omega)
    (Interval.holds_of_cross_eq (powerOfTen_pos places) h₂.isNormal.pos
      (cross_eq h₁.value h₂.value hu) hin)
  rw [← h₁.nearest, ← h₂.nearest, ← floatPower_eq _ (by omega)] at hquotient
  rw [scaled_eq_div negative digits hplaces (Nat.le_trans hplaces' (by decide)), hquotient, hx]
  cases negative with
  | true => exact neg_normal h
  | false => rfl

end PaintBench.Decimal
