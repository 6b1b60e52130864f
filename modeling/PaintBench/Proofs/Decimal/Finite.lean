import PaintBench.Decimal.Scaled
import PaintBench.Proofs.Quantity.Binary64

/-!
# Finite numbers by their bits

A number is finite unless all bits of its exponent are set. So the whole numbers of 64 bits are
all read as finite numbers (`isFinite_ofInt`).
-/

namespace PaintBench.Decimal

open Float.Model (UnpackedFloat)
open Float.Model.UnpackedFloat (unpackExponent unpackMantissa packComponents)

/-- The bits of an exponent are all set. -/
def exponentIsFull (bits : Nat) : Prop :=
  bits / powerOfTwo 52 % 2048 = 2047

theorem unpackExponent_eq_iff (b : BitVec 64) :
    @unpackExponent .binary64 b = -1#_ ↔ exponentIsFull b.toNat := by
  rw [← BitVec.toNat_inj]
  simp [unpackExponent, exponentIsFull, powerOfTwo, Nat.shiftRight_eq_div_pow]

/-- Bits are those of a finite number if those of the exponent are not all set. -/
theorem isFinite_unpack_iff (b : BitVec 64) :
    (UnpackedFloat.unpack .binary64 b).isFinite = true ↔
      @unpackExponent .binary64 b ≠ -1#_ := by
  delta UnpackedFloat.unpack
  dsimp only
  by_cases hfull : @unpackExponent .binary64 b = -1#_
  · refine iff_of_false ?_ (not_not.mpr hfull)
    rw [if_pos hfull]
    exact Binary64.dite_of (·.isFinite ≠ true) (fun _ => Bool.false_ne_true)
      fun _ => Bool.false_ne_true
  · refine iff_of_true ?_ hfull
    rw [if_neg hfull]
    exact Binary64.dite_of (·.isFinite = true)
      (fun _ => Binary64.dite_of (·.isFinite = true) (fun _ => rfl) fun _ => rfl) fun _ => rfl

/-- A number is packed into finite bits if its exponent is within the format. -/
theorem isFinite_unpack_pack {s : UnpackedFloat.Sign} {m : Nat} {e : Int} (hm : 0 < m)
    (he : (e + 1023 + 52).toNat < 2047) :
    (UnpackedFloat.unpack .binary64
      (UnpackedFloat.pack .binary64 (.finite s m e hm))).isFinite = true := by
  have hbiased : ¬2 ^ 11 ≤ (e + 1023 + 52).toNat + 1 := by omega
  rw [isFinite_unpack_iff]
  change unpackExponent (if 2 ^ 11 ≤ (e + 1023 + 52).toNat + 1 then _ else _) ≠ _
  rw [if_neg hbiased]
  split <;> rw [UnpackedFloat.unpackExponent_packComponents, ne_eq, ← BitVec.toNat_inj]
  · change (e + 1023 + 52).toNat % 2 ^ 11 ≠ 2047
    omega
  · decide

/-- A zero, or digits with an exponent within the format. -/
def FitsFormat (u : UnpackedFloat) : Prop :=
  (∃ s, u = .zero s) ∨ ∃ s m e hm, u = .finite s m e hm ∧ (e + 1023 + 52).toNat < 2047

theorem fitsFormat_unpack {b : BitVec 64} (h : @unpackExponent .binary64 b ≠ -1#_) :
    FitsFormat (UnpackedFloat.unpack .binary64 b) := by
  have hlt : (@unpackExponent .binary64 b).toNat < 2047 := by
    have hne : (@unpackExponent .binary64 b).toNat ≠ 2047 :=
      fun heq => h (BitVec.eq_of_toNat_eq heq)
    have hbound := (@unpackExponent .binary64 b).isLt
    simp only at hbound
    omega
  delta UnpackedFloat.unpack
  dsimp only
  rw [if_neg h]
  refine Binary64.dite_of FitsFormat (fun hzero => ?_) fun _ => ?_
  · refine Binary64.dite_of FitsFormat (fun _ => Or.inl ⟨_, rfl⟩)
      fun _ => Or.inr ⟨_, _, _, _, rfl, ?_⟩
    rw [hzero]
    decide
  · refine Or.inr ⟨_, _, _, _, rfl, ?_⟩
    change (((@unpackExponent .binary64 b).toNat : Int) - (1023 + 52) + 1023 + 52).toNat < _
    omega

/-- Bits of a finite number are unpacked and packed again as those of a finite one. -/
theorem isFinite_repack {b : BitVec 64} (h : @unpackExponent .binary64 b ≠ -1#_) :
    (UnpackedFloat.unpack .binary64
      (UnpackedFloat.pack .binary64 (UnpackedFloat.unpack .binary64 b))).isFinite = true := by
  rcases fitsFormat_unpack h with ⟨s, hzero⟩ | ⟨s, m, e, hm, hfinite, he⟩
  · rw [hzero]
    cases s <;> rfl
  · rw [hfinite]
    exact isFinite_unpack_pack hm he

theorem isFinite_iff (x : Float) : x.isFinite = true ↔ ¬exponentIsFull x.toBits.toNat := by
  rw [← UInt64.toNat_toBitVec, ← unpackExponent_eq_iff]
  exact isFinite_unpack_iff x.toBits.toBitVec

/-- Both notions of finite numbers agree. -/
theorem isFinite_of_isFinite {x : Float} (h : isFinite x = true) : x.isFinite = true := by
  rw [isFinite_iff]
  intro hfull
  rw [exponentIsFull] at hfull
  simp only [isFinite, unpack, hfull, if_true] at h
  split at h
  · next heq =>
    split at heq <;> cases heq
  · cases h

/-- Bits of a finite number give this number. -/
theorem isFinite_ofBits {bits : UInt64} (h : ¬exponentIsFull bits.toNat) :
    (Float.ofBits bits).isFinite = true := by
  rw [← UInt64.toNat_toBitVec, ← unpackExponent_eq_iff] at h
  exact isFinite_repack h

theorem powerOfTwo_52 : powerOfTwo 52 = 4503599627370496 := rfl

/-- Rounding goes up to the next number at most. -/
theorem roundHalfEven_le (num den : Nat) : roundHalfEven num den ≤ num / den + 1 := by
  rw [roundHalfEven]
  split
  · exact Nat.le_refl _
  · exact Nat.le_succ _

theorem log2_units_lt {n k units : Nat} (h : n < UInt64.size) (hunits : n * powerOfTwo k = units) :
    units.log2 < 64 + k := by
  by_cases hzero : units = 0
  · rw [hzero, Nat.log2_zero]
    omega
  · rw [Nat.log2_lt hzero, Nat.pow_add, ← hunits]
    exact Nat.mul_lt_mul_of_pos_right h (Nat.pow_pos (by decide))

/-- A whole number of 64 bits is far below the greatest numbers. -/
theorem magnitudeBits_lt {n : Nat} (h : n < UInt64.size) :
    magnitudeBits n 1 < 2047 * powerOfTwo 52 := by
  obtain ⟨units, hunits⟩ : ∃ units, n * powerOfTwo 1074 = units := ⟨_, rfl⟩
  have hlog : units.log2 < 64 + 1074 := log2_units_lt h hunits
  have hkept : units / 2 ^ (units.log2 - 52) < 2 ^ 53 := by
    rw [Nat.div_lt_iff_lt_mul (Nat.pow_pos (by decide)), ← Nat.pow_add]
    exact Nat.lt_of_lt_of_le Nat.lt_log2_self (Nat.pow_le_pow_right (by decide) (by omega))
  have hround := roundHalfEven_le units (2 ^ (units.log2 - 52))
  have hsum : magnitudeBits n 1 =
      roundHalfEven units (2 ^ (units.log2 - 52)) + (units.log2 - 52) * 2 ^ 52 := by
    rw [magnitudeBits, hunits, Nat.div_one, Nat.one_mul]
    rfl
  rw [hsum, powerOfTwo_52]
  omega

/-- A whole number of 64 bits is closest to a finite number. -/
theorem isFinite_nearest {n : Nat} (h : n < UInt64.size) (negative : Bool) :
    (nearest negative n 1).isFinite = true := by
  have hlt := magnitudeBits_lt h
  apply isFinite_ofBits
  rw [Nat.min_eq_left (Nat.le_of_lt hlt), exponentIsFull]
  have hsign : powerOfTwo 63 = 9223372036854775808 := rfl
  rw [powerOfTwo_52] at hlt ⊢
  simp only [hsign]
  have hsize : UInt64.size = 2 ^ 64 := rfl
  rw [UInt64.toNat_ofNat_of_lt' (by split <;> omega)]
  split <;> omega

theorem isFinite_ofInt {n : Int} (h : n.natAbs < UInt64.size) : (ofInt n).isFinite = true :=
  isFinite_nearest h _

end PaintBench.Decimal
