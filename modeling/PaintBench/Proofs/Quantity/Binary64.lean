import Mathlib.Data.Prod.Lex
import Mathlib.Data.Int.Order.Basic
import PaintBench.Proofs.Quantity.Ordered

/-!
# Binary64 numbers as quantities

`Float` compares unpacked numbers, and these are ordered by their `rank`. The two zeros have
the same rank; what is not a number has none. So `Float` is an ordered quantity.

A sum of finite numbers is a number, though it may be too great to be finite.
-/

namespace PaintBench.Binary64

open Float.Model

/-! ## Comparisons -/

/-- The place of a number in the order of all numbers. -/
def rank : UnpackedFloat → Option (ℤ ×ₗ ℤ ×ₗ ℤ)
  | .notANumber => none
  | .infinity .negative => some (toLex (-2, toLex (0, 0)))
  | .finite .negative m e _ => some (toLex (-1, toLex (-e, -m)))
  | .zero _ => some (toLex (0, toLex (0, 0)))
  | .finite .positive m e _ => some (toLex (1, toLex (e, m)))
  | .infinity .positive => some (toLex (2, toLex (0, 0)))

/-- Numbers compare as their ranks. -/
theorem compare_eq (u v : UnpackedFloat) :
    u.compare v = (rank u).bind fun x => (rank v).map (compare x) := by
  have hcast (m n : Nat) : compare (m : ℤ) n = compare m n := by
    simp only [Int.compare_eq_ite_lt, Nat.compare_eq_ite_lt, Int.ofNat_lt]
  have hneg (a b : ℤ) : compare (-a) (-b) = (compare a b).swap := by
    rw [Int.compare_swap]
    simp only [Int.compare_eq_ite_lt, Int.neg_lt_neg_iff]
  rcases u with ⟨⟨⟩⟩ | _ | s | ⟨⟨⟩, m, e, hm⟩ <;> rcases v with ⟨⟨⟩⟩ | _ | t | ⟨⟨⟩, n, f, hn⟩ <;>
    dsimp only [rank, UnpackedFloat.compare] <;>
    simp [Prod.Lex.compare_def, compareLex, compareOn, hcast, hneg, Ordering.swap_then] <;> rfl

/-- A number as it is computed with. -/
def unpacked (x : Float) : UnpackedFloat :=
  x.toModel.unpack

/-- A number is at most another one if its rank is. -/
theorem le_iff {a b : Float} :
    a ≤ b ↔ ∃ x ∈ rank (unpacked a), ∃ y ∈ rank (unpacked b), x ≤ y := by
  have h : a ≤ b ↔ (unpacked a).le (unpacked b) = true :=
    decide_eq_true_iff
  rw [h, UnpackedFloat.le, compare_eq]
  cases rank (unpacked a) <;> cases rank (unpacked b) <;>
    simp [← Ordering.ne_gt_iff_isLE, compare_le_iff_le]

/-- A number is less than another one if its rank is. -/
theorem lt_iff {a b : Float} :
    a < b ↔ ∃ x ∈ rank (unpacked a), ∃ y ∈ rank (unpacked b), x < y := by
  have h : a < b ↔ (unpacked a).lt (unpacked b) = true :=
    decide_eq_true_iff
  rw [h, UnpackedFloat.lt, compare_eq]
  cases rank (unpacked a) <;> cases rank (unpacked b) <;> simp [compare_lt_iff_lt]

/-- What has a rank is a number. -/
theorem le_self_iff {a : Float} : a ≤ a ↔ unpacked a ≠ .notANumber := by
  rw [le_iff]
  rcases unpacked a with ⟨⟨⟩⟩ | _ | s | ⟨⟨⟩, m, e, hm⟩
  case notANumber => exact iff_of_false nofun fun h => h rfl
  all_goals exact iff_of_true ⟨_, rfl, _, rfl, le_refl _⟩ nofun

/-- Numbers of the same rank are the same, but for the sign of a zero. -/
theorem eq_or_zero_of_rank_eq {u v : UnpackedFloat} (h : rank u = rank v) :
    u = v ∨ (∃ s, u = .zero s) ∧ ∃ t, v = .zero t := by
  rcases u with ⟨⟨⟩⟩ | _ | s | ⟨⟨⟩, m, e, hm⟩ <;> rcases v with ⟨⟨⟩⟩ | _ | t | ⟨⟨⟩, n, f, hn⟩ <;>
    dsimp only [rank] at h <;> simp at h
  case zero.zero => exact Or.inr ⟨⟨s, rfl⟩, t, rfl⟩
  case finite.negative.finite.negative =>
    obtain ⟨rfl, hmn⟩ := h
    obtain rfl : m = n := by omega
    exact Or.inl rfl
  case finite.positive.finite.positive =>
    obtain ⟨rfl, hmn⟩ := h
    obtain rfl : m = n := by omega
    exact Or.inl rfl
  all_goals exact Or.inl rfl

/-! ## Results of operations -/

section

open Float.Model.UnpackedFloat (unpackExponent unpackMantissa packedInfinity packedZero)

variable {spec : Format}

/-- What holds of both results of a choice holds of the choice. -/
theorem dite_of (P : UnpackedFloat → Prop) {c : Prop} [Decidable c] {t : c → UnpackedFloat}
    {e : ¬c → UnpackedFloat} (ht : ∀ h, P (t h)) (he : ∀ h, P (e h)) : P (dite c t e) := by
  by_cases h : c
  · rw [dif_pos h]
    exact ht h
  · rw [dif_neg h]
    exact he h

theorem dite_ne_notANumber {c : Prop} [Decidable c] {t : c → UnpackedFloat}
    {e : ¬c → UnpackedFloat} (ht : ∀ h, t h ≠ .notANumber) (he : ∀ h, e h ≠ .notANumber) :
    dite c t e ≠ .notANumber :=
  dite_of (· ≠ .notANumber) ht he

/-- Bits without the greatest exponent, or with it and no digits, are a number. -/
theorem unpack_ne_notANumber {b : BitVec spec.numBits}
    (hb : unpackExponent b = -1#_ → unpackMantissa b = 0#_) :
    UnpackedFloat.unpack spec b ≠ .notANumber := by
  refine dite_ne_notANumber (fun hexponent => ?_) fun _ => ?_
  · rw [if_pos (hb hexponent)]
    nofun
  · exact dite_ne_notANumber (fun _ => dite_ne_notANumber (fun _ => nofun) fun _ => nofun)
      fun _ => nofun

/-- A number is packed into the bits of a number. -/
theorem unpack_pack_ne_notANumber {u : UnpackedFloat} (hu : u ≠ .notANumber) :
    UnpackedFloat.unpack spec (UnpackedFloat.pack spec u) ≠ .notANumber := by
  apply unpack_ne_notANumber
  fun_cases UnpackedFloat.pack spec u with
  | case1 => exact absurd rfl hu
  | case2 s => simp [packedInfinity]
  | case3 s => simp [packedZero]
  | case4 s m e hm biased hbig => simp [packedInfinity]
  | case5 s m e hm bits biased hsmall hnormal =>
    have hexponent : biased % 2 ^ spec.exponentBits ≠ 2 ^ spec.exponentBits - 1 := by
      rw [Nat.mod_eq_of_lt (by omega)]
      omega
    simp [BitVec.neg_one_eq_allOnes, ← BitVec.toNat_inj, hexponent]
  | case6 s m e hm bits biased hsmall hsubnormal => simp [Nat.pos_iff_ne_zero.1 spec.he]

end

/-- A result as a number again. -/
def packed (u : UnpackedFloat) : Float :=
  .ofModel (.pack u)

theorem add_eq (a b : Float) : a + b = packed (.add .binary64 (unpacked a) (unpacked b)) :=
  rfl

theorem sub_eq (a b : Float) : a - b = packed (.sub .binary64 (unpacked a) (unpacked b)) :=
  rfl

theorem div_eq (a b : Float) : a / b = packed (.div .binary64 (unpacked a) (unpacked b)) :=
  rfl

/-- A number stays a number, be it an infinite one. -/
theorem packed_le_self {u : UnpackedFloat} (hu : u ≠ .notANumber) : packed u ≤ packed u :=
  le_self_iff.mpr (unpack_pack_ne_notANumber hu)

/-- A zero stays a zero. -/
theorem unpacked_packed_zero (s : UnpackedFloat.Sign) :
    ∃ t, unpacked (packed (.zero s)) = .zero t := by
  refine ⟨s, ?_⟩
  cases s <;> rfl

/-- A zero is at most any zero. -/
theorem packed_zero_le (s t : UnpackedFloat.Sign) : packed (.zero s) ≤ packed (.zero t) := by
  obtain ⟨s', hs⟩ := unpacked_packed_zero s
  obtain ⟨t', ht⟩ := unpacked_packed_zero t
  rw [le_iff, hs, ht]
  exact ⟨_, rfl, _, rfl, le_refl _⟩

/-- Alike numbers have alike results if an operation takes the two zeros to equal ones or to
zeros again. -/
theorem alike_packed (op : UnpackedFloat → UnpackedFloat)
    (hop : ∀ s t, op (.zero s) = op (.zero t) ∨
      (∃ s', op (.zero s) = .zero s') ∧ ∃ t', op (.zero t) = .zero t')
    {a b : Float} (h : Quantity.Alike a b) :
    Quantity.Alike (packed (op (unpacked a))) (packed (op (unpacked b))) := by
  rcases h with rfl | ⟨hab, hba⟩
  · exact Or.inl rfl
  obtain ⟨x, hx, y, hy, hxy⟩ := le_iff.mp hab
  obtain ⟨y', hy', x', hx', hyx⟩ := le_iff.mp hba
  rw [Option.mem_unique hy' hy, Option.mem_unique hx' hx] at hyx
  have hrank : rank (unpacked a) = rank (unpacked b) := by
    rw [Option.mem_def.mp hx, Option.mem_def.mp hy, le_antisymm hxy hyx]
  rcases eq_or_zero_of_rank_eq hrank with h | ⟨⟨s, hs⟩, t, ht⟩
  · exact Or.inl (by rw [h])
  · rw [hs, ht]
    rcases hop s t with h | ⟨⟨s', hs'⟩, t', ht'⟩
    · exact Or.inl (by rw [h])
    · rw [hs', ht']
      exact Or.inr ⟨packed_zero_le s' t', packed_zero_le t' s'⟩

/-- Numbers are ordered by their ranks. -/
instance : Quantity.Ordered Float where
  le_trans := by
    intro a b c hab hbc
    obtain ⟨x, hx, y, hy, hxy⟩ := le_iff.mp hab
    obtain ⟨y', hy', z, hz, hyz⟩ := le_iff.mp hbc
    rw [Option.mem_unique hy' hy] at hyz
    exact le_iff.mpr ⟨x, hx, z, hz, hxy.trans hyz⟩
  lt_iff := by
    intro a b
    constructor
    · intro h
      obtain ⟨x, hx, y, hy, hxy⟩ := lt_iff.mp h
      refine ⟨le_iff.mpr ⟨x, hx, y, hy, hxy.le⟩, fun hba => ?_⟩
      obtain ⟨y', hy', x', hx', hyx⟩ := le_iff.mp hba
      rw [Option.mem_unique hy' hy, Option.mem_unique hx' hx] at hyx
      exact absurd hxy (not_lt_of_ge hyx)
    · rintro ⟨hab, hba⟩
      obtain ⟨x, hx, y, hy, -⟩ := le_iff.mp hab
      exact lt_iff.mpr ⟨x, hx, y, hy,
        lt_of_not_ge fun h => hba (le_iff.mpr ⟨y, hy, x, hx, h⟩)⟩
  le_total := by
    intro a b ha hb
    obtain ⟨x, hx, -⟩ := le_iff.mp ha
    obtain ⟨y, hy, -⟩ := le_iff.mp hb
    rcases le_or_gt x y with h | h
    · exact Or.inl (le_iff.mpr ⟨x, hx, y, hy, h⟩)
    · exact Or.inr (le_iff.mpr ⟨y, hy, x, hx, h.le⟩)
  sub_alike := by
    intro a b c h
    refine alike_packed (.sub .binary64 · (unpacked c)) (fun s t => ?_) h
    rcases unpacked c with _ | _ | z | _
    · exact Or.inl rfl
    · exact Or.inl rfl
    · cases s <;> cases t <;> cases z <;> exact Or.inr ⟨⟨_, rfl⟩, _, rfl⟩
    · exact Or.inl rfl
  div_alike := by
    intro a b c h
    refine alike_packed (.div .binary64 · (unpacked c)) (fun s t => ?_) h
    rcases unpacked c with _ | _ | z | _
    · exact Or.inr ⟨⟨_, rfl⟩, _, rfl⟩
    · exact Or.inl rfl
    · exact Or.inl rfl
    · exact Or.inr ⟨⟨_, rfl⟩, _, rfl⟩

/-! ## Finite numbers -/

/-- A finite number is a zero, or has digits. -/
theorem zero_or_finite {a : Float} (ha : a.isFinite = true) :
    (∃ s, unpacked a = .zero s) ∨ ∃ s m e hm, unpacked a = .finite s m e hm := by
  have ha' : (unpacked a).isFinite = true := ha
  cases hu : unpacked a with
  | infinity s => rw [hu] at ha'; cases ha'
  | notANumber => rw [hu] at ha'; cases ha'
  | zero s => exact Or.inl ⟨s, rfl⟩
  | finite s m e hm => exact Or.inr ⟨s, m, e, hm, rfl⟩

/-- A finite number is a number. -/
theorem le_self_of_isFinite {a : Float} (ha : a.isFinite = true) : a ≤ a := by
  rw [le_self_iff]
  rcases zero_or_finite ha with ⟨s, h⟩ | ⟨s, m, e, hm, h⟩ <;> rw [h] <;> nofun

/-- Rounding makes a number, also out of a quotient. -/
theorem roundWithAccuracy_ne_notANumber (s : UnpackedFloat.Sign) (m : Nat) (e : Int)
    (accuracy : UnpackedFloat.Accuracy) :
    UnpackedFloat.roundWithAccuracy .binary64 s m e accuracy ≠ .notANumber :=
  dite_ne_notANumber (fun _ => nofun) fun _ => nofun

/-- A sum is rounded to a number. -/
theorem normalize_ne_notANumber (m e : Int) :
    UnpackedFloat.normalize .binary64 m e .positive ≠ .notANumber := by
  delta UnpackedFloat.normalize
  cases compare m 0 with
  | lt => exact roundWithAccuracy_ne_notANumber _ _ _ _
  | eq => nofun
  | gt => exact roundWithAccuracy_ne_notANumber _ _ _ _

/-- A sum of finite numbers is a number. -/
theorem add_le_self {a b : Float} (ha : a.isFinite = true) (hb : b.isFinite = true) :
    a + b ≤ a + b := by
  rw [add_eq]
  apply packed_le_self
  rcases zero_or_finite ha with ⟨s, hs⟩ | ⟨s, m, e, hm, hs⟩ <;>
    rcases zero_or_finite hb with ⟨t, ht⟩ | ⟨t, n, f, hn, ht⟩ <;> rw [hs, ht]
  · exact dite_ne_notANumber (fun _ => nofun) fun _ => nofun
  · nofun
  · nofun
  · exact normalize_ne_notANumber _ _

/-- A finite number taken off a number leaves a number. -/
theorem sub_le_self {a b : Float} (ha : a ≤ a) (hb : b.isFinite = true) : a - b ≤ a - b := by
  rw [le_self_iff] at ha
  rw [sub_eq]
  apply packed_le_self
  rcases zero_or_finite hb with ⟨t, hb⟩ | ⟨t, n, f, hn, hb⟩ <;> rw [hb]
  · rcases hu : unpacked a with s | _ | s | ⟨s, m, e, hm⟩
    · nofun
    · exact absurd hu ha
    · exact dite_ne_notANumber (fun _ => nofun) fun _ => nofun
    · nofun
  · rcases hu : unpacked a with s | _ | s | ⟨s, m, e, hm⟩
    · nofun
    · exact absurd hu ha
    · nofun
    · exact normalize_ne_notANumber _ _

/-- A number divided by a finite one other than zero is a number. -/
theorem div_le_self {a b : Float} (ha : a ≤ a)
    (hb : ∃ s m e hm, unpacked b = .finite s m e hm) : a / b ≤ a / b := by
  obtain ⟨t, n, f, hn, hb⟩ := hb
  rw [le_self_iff] at ha
  rw [div_eq, hb]
  apply packed_le_self
  rcases hu : unpacked a with s | _ | s | ⟨s, m, e, hm⟩
  · nofun
  · exact absurd hu ha
  · nofun
  · exact roundWithAccuracy_ne_notANumber _ _ _ _

end PaintBench.Binary64
