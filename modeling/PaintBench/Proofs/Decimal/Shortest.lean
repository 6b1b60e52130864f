import PaintBench.Decimal.Shortest

/-!
# Digits that stand for a number

The fewest digits that read back lie in the interval of their number (`shortest_mem`), so at least
one of them is not zero (`shortest_pos`).
-/

namespace PaintBench.Decimal

theorem powerOfTen_pos (n : Nat) : 0 < powerOfTen n :=
  Nat.pow_pos (by decide)

theorem powerOfTwo_pos (n : Nat) : 0 < powerOfTwo n :=
  Nat.pow_pos (by decide)

theorem powerOfTen_add (j k : Nat) : powerOfTen (j + k) = powerOfTen j * powerOfTen k :=
  Nat.pow_add 10 j k

theorem powerOfTwo_add (j k : Nat) : powerOfTwo (j + k) = powerOfTwo j * powerOfTwo k :=
  Nat.pow_add 2 j k

theorem powerOfTen_eq (n : Nat) : powerOfTen n = Nat.pow 5 n * powerOfTwo n :=
  Nat.mul_pow 5 2 n

namespace Interval

/-- The number that some digits stand for lies in an interval. -/
def Contains (i : Interval) (d : Digits) : Prop :=
  i.holds (d.digits * (powerOfTwo 1076 * powerOfTen d.exponent.toNat))
    (powerOfTen (-d.exponent).toNat) = true

/-- An interval that its own value belongs to. -/
def IsAround (i : Interval) : Prop :=
  i.low < i.value ∧ i.value < i.high

theorem holds_iff {i : Interval} {num den : Nat} :
    i.holds num den = true ↔ i.low * den ≤ num ∧ num ≤ i.high * den ∧
      (i.closed = false → i.low * den ≠ num ∧ num ≠ i.high * den) := by
  rw [holds]
  cases i.closed with
  | true => simp
  | false =>
    simp
    omega

/-- Equal fractions lie in the same intervals. -/
theorem holds_of_cross_eq {i : Interval} {num den num' den' : Nat} (hden : 0 < den)
    (hden' : 0 < den') (hcross : num' * den = num * den') (h : i.holds num den = true) :
    i.holds num' den' = true := by
  obtain ⟨hlow, hhigh, hne⟩ := holds_iff.mp h
  have hswap (a : Nat) : a * den' * den = a * den * den' := Nat.mul_right_comm a den' den
  refine holds_iff.mpr ⟨?_, ?_, fun hopen => ⟨fun heq => ?_, fun heq => ?_⟩⟩
  · refine Nat.le_of_mul_le_mul_right ?_ hden
    rw [hcross, hswap]
    exact Nat.mul_le_mul_right den' hlow
  · refine Nat.le_of_mul_le_mul_right ?_ hden
    rw [hcross, hswap]
    exact Nat.mul_le_mul_right den' hhigh
  · rw [← heq, hswap] at hcross
    exact (hne hopen).1 (Nat.eq_of_mul_eq_mul_right hden' hcross)
  · rw [heq, hswap] at hcross
    exact (hne hopen).2 (Nat.eq_of_mul_eq_mul_right hden' hcross.symm)

theorem contains_of_onGrid {i : Interval} {tie : Tie} {exponent : Int} {digits : Nat}
    (h : i.onGrid tie exponent = some digits) : i.Contains ⟨digits, exponent⟩ := by
  rw [onGrid] at h
  rw [Contains]
  split at h
  · cases h
  · next hbelow _ =>
    cases h
    exact hbelow
  · next _ habove =>
    cases h
    exact habove
  · next hbelow habove =>
    split at h
    · cases h
      exact hbelow
    · split at h
      · cases h
        exact habove
      · split at h <;> cases h
        · exact hbelow
        · exact habove

/-- The value itself, in full. -/
theorem contains_value {i : Interval} (hi : i.IsAround) {n : Nat} (hn : n = 1076) {exponent : Int}
    (hexponent : exponent = -n) : i.Contains ⟨i.value * Nat.pow 5 n, exponent⟩ := by
  have hnum : i.value * Nat.pow 5 n * (powerOfTwo n * powerOfTen exponent.toNat) =
      i.value * powerOfTen n := by
    have hone : exponent.toNat = 0 := by omega
    rw [hone, powerOfTen_eq n, Nat.mul_assoc]
    exact congrArg (i.value * ·) (congrArg (Nat.pow 5 n * ·) (Nat.mul_one _))
  have hden : (-exponent).toNat = n := by omega
  have hlow := Nat.mul_lt_mul_of_pos_right hi.1 (powerOfTen_pos n)
  have hhigh := Nat.mul_lt_mul_of_pos_right hi.2 (powerOfTen_pos n)
  rw [Contains, ← hn, hnum, hden, holds_iff]
  exact ⟨Nat.le_of_lt hlow, Nat.le_of_lt hhigh, fun _ => ⟨Nat.ne_of_lt hlow, Nat.ne_of_lt hhigh⟩⟩

theorem contains_search {i : Interval} (hi : i.IsAround) (tie : Tie) (tries : Nat) :
    ∀ exponent : Int, i.Contains (i.search tie tries exponent) := by
  induction tries with
  | zero =>
    intro exponent
    -- the power stays a variable, as it is too great to be computed
    obtain ⟨n, hn⟩ : ∃ n, n = 1076 := ⟨_, rfl⟩
    rw [search, ← hn]
    exact contains_value hi hn (by omega)
  | succ tries ih =>
    intro exponent
    rw [search]
    split
    · next digits h => exact contains_of_onGrid h
    · exact ih (exponent - 1)

/-- Zero does not lie in the interval of a number. -/
theorem Contains.pos {i : Interval} (hlow : 0 < i.low) {d : Digits} (h : i.Contains d) :
    0 < d.digits := by
  have hle := (holds_iff.mp h).1
  have hden := powerOfTen_pos (-d.exponent).toNat
  refine Nat.pos_of_ne_zero fun hzero => ?_
  rw [hzero, Nat.zero_mul] at hle
  exact absurd (Nat.mul_pos hlow hden) (Nat.not_lt.mpr hle)

variable {m : Nat} (s : Nat)

theorem low_of_pos (hm : 0 < m) : 0 < (of m s).low := by
  refine Nat.mul_pos ?_ (powerOfTwo_pos s)
  split <;> omega

theorem isAround_of (hm : 0 < m) : (of m s).IsAround := by
  have hpos := powerOfTwo_pos s
  constructor
  · refine Nat.mul_lt_mul_of_pos_right ?_ hpos
    split <;> omega
  · exact Nat.mul_lt_mul_of_pos_right (by omega) hpos

end Interval

variable {m : Nat} (s : Nat) (tie : Tie)

/-- The fewest digits stand for a number in the interval. -/
theorem contains_shortest (hm : 0 < m) : (Interval.of m s).Contains (shortest tie m s) :=
  Interval.contains_search (Interval.isAround_of s hm) tie 40 _

theorem shortest_pos (hm : 0 < m) : 0 < (shortest tie m s).digits :=
  (contains_shortest s tie hm).pos (Interval.low_of_pos s hm)

end PaintBench.Decimal
