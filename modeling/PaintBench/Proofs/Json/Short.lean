import PaintBench.Proofs.Decimal.ReadBack
import PaintBench.Proofs.Json.Literal

/-!
# Numbers with few digits

The reader rounds a decimal more than once, so it may miss the number that was written. It does
not where the digits fit into a significand and the power of ten is a whole number of 53 bits but
for a power of two: `IsShort` numbers are read as they were written (`readBack_of_isShort`).
-/

namespace PaintBench

open Json

namespace Decimal

/-- A zero, or a number that is written with at most 22 places, and with digits that fit into a
significand, also if a zero is written after the decimal point. -/
def IsShort (x : Float) : Prop :=
  ∃ negative m s, unpack x = .finite negative m s ∧
    (0 < m → (shortest .even m s).digits *
      powerOfTen ((shortest .even m s).exponent + 1).toNat < 2 ^ 53 ∧
      -22 ≤ (shortest .even m s).exponent)

theorem IsShort.isFinite {x : Float} (h : IsShort x) : isFinite x := by
  obtain ⟨negative, m, s, hunpack, -⟩ := h
  rw [Decimal.isFinite, hunpack]

end Decimal

namespace Json

open Decimal Literal

namespace Literal

/-- The parts of a number are put together without loss if their digits fit into 64 bits. -/
theorem value_eq {l : Literal} (hbroken : l.IsBroken) (hfits : l.significand < UInt64.size) :
    l.value = ofFinite (scaled l.negative l.significand l.scale) := by
  have happend : l.significand = Nat.ofDigitChars 10 l.fraction (Nat.ofDigitChars 10 l.whole 0) :=
    Nat.ofDigitChars_append ..
  rw [happend] at hfits
  have hwhole : Nat.ofDigitChars 10 l.whole 0 < UInt64.size :=
    Nat.lt_of_le_of_lt (le_ofDigitChars l.fraction _) hfits
  have hscale :
      ((0 : Nat) : Int) + (0 : Nat) - l.fraction.length + l.exponent.getD 0 = l.scale := by
    rw [scale]
    omega
  rw [value, ofLiteral, appendDigits_of_lt hwhole]
  simp only [hbroken.isWhole_eq_false, Bool.false_and, Bool.false_eq_true, if_false,
    appendDigits_of_lt hfits]
  rw [hscale, happend]

end Literal

/-- A zero is read as it was written. -/
theorem scaled_zero {x : Float} {negative : Bool} {s : Nat}
    (hunpack : unpack x = .finite negative 0 s) : scaled negative 0 (-1) = x := by
  have hscaled : scaled negative 0 (-1) = _ := scaled_eq_div negative 0 Nat.one_pos (by decide)
  obtain ⟨hbits, -, -, hplace⟩ := toNat_toBits_of_unpack hunpack
  rw [hplace (by decide)] at hbits
  refine eq_of_toBits (UInt64.toNat_inj.mp ?_)
  rw [hscaled, hbits]
  cases negative <;> decide +kernel

variable {d : Digits}

/-- Numbers with an exponent have more digits than fit into a significand. -/
theorem pointOf_le (hpos : 0 < d.digits) (hexponent : 0 ≤ d.exponent)
    (hfits : d.digits * powerOfTen (d.exponent + 1).toNat < 2 ^ 53) : pointOf d ≤ 16 := by
  refine Int.not_lt.mp fun hpoint => ?_
  rw [pointOf] at hpoint
  obtain ⟨e, he⟩ := Int.eq_ofNat_of_zero_le hexponent
  have hdigits : powerOfTen (16 - e) ≤ d.digits := by
    rcases Nat.eq_zero_or_pos (16 - e) with hzero | hk
    · rw [hzero]
      exact hpos
    · refine Nat.le_of_not_lt fun hlt => ?_
      have hlength := (Nat.length_toDigits_le_iff (by decide) hk).mpr hlt
      rw [digitsOf] at hpoint
      omega
  have hsum : (d.exponent + 1).toNat = e + 1 := by omega
  rw [hsum] at hfits
  refine absurd hfits (Nat.not_lt.mpr ?_)
  calc 2 ^ 53 ≤ powerOfTen 17 := by decide
    _ ≤ powerOfTen (16 - e + (e + 1)) := Nat.pow_le_pow_right (by decide) (by omega)
    _ = powerOfTen (16 - e) * powerOfTen (e + 1) := Nat.pow_add _ _ _
    _ ≤ d.digits * powerOfTen (e + 1) := Nat.mul_le_mul_right _ hdigits

/-- Zeros are the same as a greater power of ten. -/
theorem mul_powerOfTen_eq {a b i j k l : Nat} (h : i + j = k + l) :
    a * powerOfTen i * b * powerOfTen j = a * (b * powerOfTen k) * powerOfTen l := by
  calc a * powerOfTen i * b * powerOfTen j = a * b * (powerOfTen i * powerOfTen j) := by ac_rfl
    _ = a * b * (powerOfTen k * powerOfTen l) := by rw [← powerOfTen_add, h, powerOfTen_add]
    _ = a * (b * powerOfTen k) * powerOfTen l := by ac_rfl

/-- Short digits are those of a decimal that is read exactly. -/
theorem exists_places {l : Literal} (hstands : l.StandsFor d) (hpos : 0 < d.digits)
    (hfits : d.digits * powerOfTen (d.exponent + 1).toNat < 2 ^ 53) (hplaces : -22 ≤ d.exponent) :
    l.significand < 2 ^ 53 ∧ ∃ places : Nat, 0 < places ∧ places ≤ 22 ∧ l.scale = -places ∧
      l.significand * powerOfTwo 1076 * powerOfTen (-d.exponent).toNat =
        d.digits * (powerOfTwo 1076 * powerOfTen d.exponent.toNat) * powerOfTen places := by
  obtain ⟨zeros, hsignificand, hscale, hcases⟩ := hstands
  -- with an exponent, a number would have too many digits
  have hcases' : zeros = 0 ∧ d.exponent < 0 ∨ zeros = d.exponent + 1 := by
    rcases hcases with ⟨hzero, hsmall⟩ | hzeros
    · by_cases hnegative : d.exponent < 0
      · exact .inl ⟨hzero, hnegative⟩
      · have := pointOf_le hpos (by omega) hfits
        omega
    · exact .inr hzeros
  have hzeros : (d.exponent + 1).toNat = zeros := by omega
  rw [hzeros, ← hsignificand] at hfits
  obtain ⟨places, hscale'⟩ : ∃ places : Nat, l.scale = -places :=
    ⟨(-l.scale).toNat, by omega⟩
  refine ⟨hfits, places, by omega, by omega, hscale', ?_⟩
  have hsum : zeros + (-d.exponent).toNat = d.exponent.toNat + places := by omega
  rw [hsignificand]
  exact mul_powerOfTen_eq hsum

theorem significand_pos {l : Literal} (hstands : l.StandsFor d) (hpos : 0 < d.digits) :
    0 < l.significand := by
  obtain ⟨zeros, hsignificand, -, -⟩ := hstands
  rw [hsignificand]
  exact Nat.mul_pos hpos (powerOfTen_pos zeros)

theorem readBack_of_isShort {x : Float} (h : IsShort x) : readBack x = .num (.float x) := by
  have hfinite := h.isFinite
  obtain ⟨negative, m, s, hunpack, hshort⟩ := h
  rcases Nat.eq_zero_or_pos m with rfl | hm
  · obtain ⟨l, htext, hnegative, hsignificand, hscale, hbroken⟩ := exists_literal_zero hunpack
    rw [readBack_eq htext, value_eq hbroken (by rw [hsignificand]; decide), hnegative,
      hsignificand, hscale, scaled_zero hunpack, ofFinite, if_pos hfinite]
  · obtain ⟨hfits, hplaces⟩ := hshort hm
    obtain ⟨l, htext, hnegative, hstands, hbroken⟩ := exists_literal hunpack hm
    have hdigits := shortest_pos s .even hm
    obtain ⟨hsmall, places, hpos, hmost, hscale, hcross⟩ :=
      exists_places hstands hdigits hfits hplaces
    have hin := Interval.holds_of_cross_eq (powerOfTen_pos _) (powerOfTen_pos places) hcross
      (contains_shortest s .even hm)
    rw [readBack_eq htext, value_eq hbroken (Nat.lt_trans hsmall (by decide)), hnegative, hscale,
      scaled_eq hunpack (significand_pos hstands hdigits) hsmall hpos hmost hin, ofFinite,
      if_pos hfinite]

/-- A number with a fraction is read from its digits, which need not be short. -/
theorem readBack_of_exponent_neg {x : Float} {negative : Bool} {m s digits : Nat} {exponent : Int}
    (hunpack : unpack x = .finite negative m s) (hm : 0 < m)
    (hshortest : shortest .even m s = ⟨digits, exponent⟩) (hexponent : exponent < 0)
    (hfits : digits < UInt64.size) :
    readBack x = ofFinite (scaled negative digits exponent) := by
  obtain ⟨l, htext, hnegative, ⟨zeros, hsignificand, hscale, hcases⟩, hbroken⟩ :=
    exists_literal hunpack hm
  simp only [hshortest] at hsignificand hscale hcases
  obtain rfl : zeros = 0 := by omega
  have hdigits : l.significand = digits := hsignificand.trans (Nat.mul_one _)
  rw [readBack_eq htext, value_eq hbroken (hdigits ▸ hfits), hnegative, hdigits, hscale,
    Int.natCast_zero, Int.sub_zero]

end Json

end PaintBench
