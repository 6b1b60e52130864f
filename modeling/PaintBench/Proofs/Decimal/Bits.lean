import PaintBench.Proofs.Decimal.Finite
import PaintBench.Proofs.Decimal.Rounding
import PaintBench.Proofs.Decimal.Shortest

/-!
# Normal numbers by their bits

A normal number has a significand `m` of 53 bits and counts units of `2 ^ (s - 1074)`. It is
unpacked from the bits it is packed into (`unpack_normalBits`), and these are those of
`s * 2 ^ 52 + m`, and of its sign (`toNat_normalBits`). So every normal number is `normal`
of what it is unpacked to (`eq_normal_of_unpack`), and whole numbers that fit into a significand
are exact (`unpacked_nearest`).
-/

namespace PaintBench.Decimal

open Float.Model Float.Model.UnpackedFloat
open Binary64 (packed unpacked)

/-! ## Bits apart -/

theorem finite_congr {sign : Sign} {m n : Nat} {e f : Int} {hm : 0 < m} {hn : 0 < n} (h : m = n)
    (h' : e = f) : UnpackedFloat.finite sign m e hm = .finite sign n f hn := by
  subst h h'
  rfl

section

variable {spec : Format}

/-- A significand has a leading bit that is not stored. -/
theorem toNat_one_append {w : Nat} (mantissa : BitVec w) :
    (1#1 ++ mantissa).toNat = 2 ^ w + mantissa.toNat := by
  rw [BitVec.toNat_append, ← Nat.shiftLeft_add_eq_or_of_lt mantissa.isLt, Nat.shiftLeft_eq]
  exact congrArg (· + _) (Nat.one_mul _)

theorem unpackSign_packComponents (sign : Sign) (exponent : BitVec spec.exponentBits)
    (mantissa : BitVec spec.mantissaBitsWithoutImplicit) :
    unpackSign (packComponents spec sign exponent mantissa) = sign.toBitVec := by
  ext i hi
  obtain rfl : i = 0 := by omega
  delta unpackSign packComponents
  simp [BitVec.getLsbD_eq_getElem, BitVec.getLsbD_append, BitVec.getElem_append]

theorem ofBitVec_toBitVec (sign : Sign) : Sign.ofBitVec sign.toBitVec = sign := by
  cases sign <;> rfl

/-- Bits with an exponent neither empty nor full are those of a number with a leading bit. -/
theorem exists_unpack_packComponents (sign : Sign) {exponent : BitVec spec.exponentBits}
    (mantissa : BitVec spec.mantissaBitsWithoutImplicit) (hfull : exponent ≠ -1#_)
    (hempty : exponent ≠ 0#_) :
    ∃ h, UnpackedFloat.unpack spec (packComponents spec sign exponent mantissa) =
      .finite sign (2 ^ spec.mantissaBitsWithoutImplicit + mantissa.toNat)
        (exponent.toNat - (spec.exponentBias + spec.mantissaBitsWithoutImplicit)) h := by
  delta UnpackedFloat.unpack
  dsimp only
  rw [unpackExponent_packComponents, if_neg hfull, if_neg hempty, unpackSign_packComponents,
    ofBitVec_toBitVec]
  refine ⟨Nat.add_pos_left (Nat.pow_pos (by decide)) _, finite_congr ?_ rfl⟩
  rw [unpackMantissa_packComponents, toNat_one_append]

theorem toNat_packComponents (sign : Sign) (exponent : BitVec spec.exponentBits)
    (mantissa : BitVec spec.mantissaBitsWithoutImplicit) :
    (packComponents spec sign exponent mantissa).toNat =
      (sign.toBitVec.toNat * 2 ^ spec.exponentBits + exponent.toNat) *
        2 ^ spec.mantissaBitsWithoutImplicit + mantissa.toNat := by
  rw [packComponents, BitVec.toNat_append, BitVec.toNat_append,
    ← Nat.shiftLeft_add_eq_or_of_lt mantissa.isLt, ← Nat.shiftLeft_add_eq_or_of_lt exponent.isLt,
    Nat.shiftLeft_eq, Nat.shiftLeft_eq]

end

/-! ## Normal numbers -/

/-- A significand of 53 bits and an exponent within the format. -/
structure IsNormal (m s : Nat) : Prop where
  low : 2 ^ 52 ≤ m
  high : m < 2 ^ 53
  fits : s ≤ 2045

/-- The sign of a number. -/
def signOf (negative : Bool) : Sign :=
  if negative then .negative else .positive

variable {m s : Nat}

theorem IsNormal.pos (h : IsNormal m s) : 0 < m :=
  Nat.lt_of_lt_of_le (by decide) h.low

/-- A normal number, as it is computed with. -/
def normal (negative : Bool) (h : IsNormal m s) : UnpackedFloat :=
  .finite (signOf negative) m (s - 1074) h.pos

/-- The bits of a normal number. -/
def normalBits (negative : Bool) (m s : Nat) : BitVec 64 :=
  packComponents .binary64 (signOf negative) (BitVec.ofNat 11 (s + 1)) (BitVec.ofNat 52 m)

section

variable (negative : Bool) (h : IsNormal m s)

theorem bias_binary64 : (Format.binary64.exponentBias : Int) = 1023 :=
  rfl

theorem width_binary64 : (Format.binary64.mantissaBitsWithoutImplicit : Int) = 52 :=
  rfl

theorem pack_normal :
    UnpackedFloat.pack .binary64 (normal negative h) = normalBits negative m s := by
  have hbits : 2 ^ Format.binary64.exponentBits = 2048 := rfl
  have hbiased : ((s : Int) - 1074 + Format.binary64.exponentBias +
      Format.binary64.mantissaBitsWithoutImplicit).toNat = s + 1 := by
    rw [bias_binary64, width_binary64]
    omega
  have hlog : m.log2 = 52 := (Nat.log2_eq_iff h.pos.ne').mpr ⟨h.low, h.high⟩
  have hfits := h.fits
  change (if _ then _ else if m.log2 + 1 = 53 then _ else _) = _
  rw [hbiased, if_neg (by rw [hbits]; omega), hlog]
  exact if_pos rfl

include h

theorem toNat_exponent : (BitVec.ofNat 11 (s + 1)).toNat = s + 1 :=
  Nat.mod_eq_of_lt (by have := h.fits; omega)

theorem toNat_mantissa : 2 ^ 52 + (BitVec.ofNat 52 m).toNat = m := by
  have hlow := h.low
  have hhigh := h.high
  rw [BitVec.toNat_ofNat]
  omega

theorem toNat_normalBits : (normalBits negative m s).toNat =
    (if negative then 2 ^ 63 else 0) + s * 2 ^ 52 + m := by
  have hmantissa := toNat_mantissa h
  have hexponent := toNat_exponent h
  have hbits : (normalBits negative m s).toNat =
      ((signOf negative).toBitVec.toNat * 2 ^ 11 + (BitVec.ofNat 11 (s + 1)).toNat) * 2 ^ 52 +
        (BitVec.ofNat 52 m).toNat :=
    toNat_packComponents _ _ _
  have hsign : (signOf negative).toBitVec.toNat = if negative then 1 else 0 := by
    cases negative <;> rfl
  rw [hbits, hexponent, hsign]
  cases negative <;> simp <;> omega

theorem unpack_normalBits :
    UnpackedFloat.unpack .binary64 (normalBits negative m s) = normal negative h := by
  have hfits := h.fits
  have hexponent := toNat_exponent h
  have hfull : BitVec.ofNat 11 (s + 1) ≠ -1#11 := by
    rw [ne_eq, ← BitVec.toNat_inj, hexponent]
    change s + 1 ≠ 2047
    omega
  have hempty : BitVec.ofNat 11 (s + 1) ≠ 0#11 := by
    rw [ne_eq, ← BitVec.toNat_inj, hexponent]
    exact Nat.succ_ne_zero s
  obtain ⟨_, hunpack⟩ := @exists_unpack_packComponents .binary64 (signOf negative) _
    (BitVec.ofNat 52 m) hfull hempty
  refine hunpack.trans (finite_congr (toNat_mantissa h) ?_)
  rw [bias_binary64, width_binary64]
  change ((BitVec.ofNat 11 (s + 1)).toNat : Int) - _ = _
  omega

theorem toNat_toBits_normal : (packed (normal negative h)).toBits.toNat =
    (if negative then 2 ^ 63 else 0) + s * 2 ^ 52 + m :=
  (congrArg BitVec.toNat (pack_normal negative h)).trans (toNat_normalBits negative h)

theorem unpacked_packed_normal : unpacked (packed (normal negative h)) = normal negative h :=
  (congrArg (UnpackedFloat.unpack .binary64) (pack_normal negative h)).trans
    (unpack_normalBits negative h)

/-- The bits of a normal number are read as this number. -/
theorem ofBits_normal {bits : UInt64}
    (hbits : bits.toNat = (if negative then 2 ^ 63 else 0) + s * 2 ^ 52 + m) :
    Float.ofBits bits = packed (normal negative h) := by
  have hvec : bits.toBitVec = normalBits negative m s :=
    BitVec.eq_of_toNat_eq (hbits.trans (toNat_normalBits negative h).symm)
  change packed (UnpackedFloat.unpack .binary64 bits.toBitVec) = _
  rw [hvec, unpack_normalBits negative h]

end

theorem eq_of_toBits {x y : Float} (h : x.toBits = y.toBits) : x = y := by
  obtain ⟨⟨a, ha⟩⟩ := x
  obtain ⟨⟨b, hb⟩⟩ := y
  obtain rfl : a = b := h
  rfl

/-- A number and its sign are its bits, and only numbers without a leading bit have the least
place. -/
theorem toNat_toBits_of_unpack {x : Float} {negative : Bool}
    (hunpack : unpack x = .finite negative m s) :
    x.toBits.toNat = (if negative then 2 ^ 63 else 0) + s * 2 ^ 52 + m ∧ m < 2 ^ 53 ∧
      s ≤ 2045 ∧ (m < 2 ^ 52 → s = 0) := by
  have hlt := x.toBits.toNat_lt
  have hbits : powerOfTwo 63 = 9223372036854775808 := rfl
  have hsign : (if x.toBits.toNat / 9223372036854775808 == 1 then 2 ^ 63 else 0) =
      x.toBits.toNat / 9223372036854775808 * 2 ^ 63 := by
    split
    · next h => rw [beq_iff_eq.mp h, Nat.one_mul]
    · next h =>
      have hne : x.toBits.toNat / 9223372036854775808 ≠ 1 := fun heq => h (beq_iff_eq.mpr heq)
      omega
  rw [unpack, powerOfTwo_52, hbits] at hunpack
  split at hunpack
  · split at hunpack <;> cases hunpack
  · split at hunpack <;> cases hunpack <;> rw [hsign] <;> omega

/-- A number with a leading bit is normal. -/
theorem eq_normal_of_unpack {x : Float} {negative : Bool}
    (hunpack : unpack x = .finite negative m s) (hlow : 2 ^ 52 ≤ m) :
    ∃ h : IsNormal m s, x = packed (normal negative h) := by
  obtain ⟨hbits, hhigh, hfits, -⟩ := toNat_toBits_of_unpack hunpack
  have h : IsNormal m s := ⟨hlow, hhigh, hfits⟩
  exact ⟨h, eq_of_toBits (UInt64.toNat_inj.mp (hbits.trans (toNat_toBits_normal negative h).symm))⟩

/-! ## Whole numbers -/

theorem log2_mul_powerOfTwo {n : Nat} (hn : 0 < n) (k : Nat) :
    (n * powerOfTwo k).log2 = n.log2 + k := by
  have hpos := powerOfTwo_pos k
  have hself := Nat.log2_self_le hn.ne'
  have hlt : n < 2 ^ (n.log2 + 1) := Nat.lt_log2_self
  rw [Nat.log2_eq_iff (Nat.mul_pos hn hpos).ne', Nat.add_right_comm, Nat.pow_add, Nat.pow_add _ _ k]
  exact ⟨Nat.mul_le_mul_right _ hself, Nat.mul_lt_mul_of_pos_right hlt hpos⟩

theorem roundHalfEven_mul (m : Nat) {den : Nat} (hden : 0 < den) :
    roundHalfEven (m * den) den = m := by
  rw [roundHalfEven, Nat.mul_mod_left, Nat.mul_div_cancel m hden]
  exact if_neg (by simp; omega)

/-- A normal magnitude is below the infinite one. -/
theorem ofBits_magnitude (h : IsNormal m s) :
    Float.ofBits (UInt64.ofNat (min (m + s * powerOfTwo 52) (2047 * powerOfTwo 52) +
      if false then powerOfTwo 63 else 0)) = packed (normal false h) := by
  have hhigh := h.high
  have hfits := h.fits
  have hsize : UInt64.size = 2 ^ 64 := rfl
  refine ofBits_normal false h ?_
  rw [powerOfTwo_52, if_neg Bool.false_ne_true, if_neg Bool.false_ne_true, Nat.add_zero,
    Nat.zero_add, Nat.min_eq_left (by omega), UInt64.toNat_ofNat_of_lt' (by omega)]
  omega

section

variable {n r places : Nat} (hn : 0 < n) (hlog : n.log2 = places)
  (hr : r * powerOfTwo places = n * powerOfTwo 52)

include hn hlog hr

theorem magnitudeBits_whole : magnitudeBits n 1 = r + (places + 1022) * powerOfTwo 52 := by
  -- the power stays a variable, as it is too great to be computed
  obtain ⟨k, hk⟩ : ∃ k, k = 1022 := ⟨_, rfl⟩
  have hsum : 1074 = 52 + k := by omega
  have hunits : n * powerOfTwo (52 + k) = r * powerOfTwo (places + k) := by
    rw [powerOfTwo_add, powerOfTwo_add, ← Nat.mul_assoc, ← Nat.mul_assoc, hr]
  have hscale : (n * powerOfTwo (52 + k)).log2 - 52 = places + k := by
    rw [log2_mul_powerOfTwo hn]
    omega
  rw [magnitudeBits, hsum, ← hk, Nat.div_one, Nat.one_mul, hscale, hunits,
    roundHalfEven_mul r (powerOfTwo_pos _)]

/-- A whole number that fits into a significand is exact. -/
theorem nearest_eq_normal (h : IsNormal r (places + 1022)) :
    nearest false n 1 = packed (normal false h) := by
  rw [nearest, magnitudeBits_whole hn hlog hr]
  exact ofBits_magnitude h

end

end PaintBench.Decimal
